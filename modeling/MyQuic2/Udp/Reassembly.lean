import Mathlib.Data.Finset.Range
import MyQuic2.Udp.FrameSet
import MyQuic2.Udp.Gather

/-!
# Fragmentation, then reassembly

The frames of one payload arrive in any order, repeated, and mixed with the
datagrams of other payloads. The reassembler then behaves like a collector of
indexes: it yields the payload whenever the last missing index arrives, and starts
over.
-/

namespace MyQuic2

open List Option Reassembler Partial

/-- Collect the indexes below `n` until all are there, then start over; says which arrivals
complete the set. -/
def collect (n : Nat) : Finset Nat → List Nat → List Bool
  | _, [] => []
  | s, i :: is =>
    if insert i s = Finset.range n then true :: collect n ∅ is
    else false :: collect n (insert i s) is

/-- Missing indexes that arrive once each, in any order, complete the set once: at the end. -/
lemma collect_of_nodup {n : Nat} {s : Finset Nat} {is : List Nat} (hne : is ≠ [])
    (hnodup : is.Nodup) (hnew : ∀ i ∈ is, i ∉ s) (hall : ∀ j, j ∈ s ∨ j ∈ is ↔ j < n) :
    collect n s is = List.replicate (is.length - 1) false ++ [true] := by
  induction is generalizing s with
  | nil => exact absurd rfl hne
  | cons i rest ih =>
    rw [nodup_cons] at hnodup
    by_cases hrest : rest = []
    · subst hrest
      have hfull : insert i s = Finset.range n := by
        apply Finset.ext
        intro j
        rw [Finset.mem_insert, Finset.mem_range, ← hall j, mem_singleton]
        exact or_comm
      rw [collect, if_pos hfull]
      rfl
    obtain ⟨j, hj⟩ := exists_mem_of_ne_nil rest hrest
    have hpart : insert i s ≠ Finset.range n := by
      intro hfull
      have hin : j ∈ insert i s := by
        rw [hfull, Finset.mem_range]
        exact (hall j).mp (.inr (mem_cons_of_mem i hj))
      rcases Finset.mem_insert.mp hin with rfl | hs
      · exact hnodup.1 hj
      · exact hnew j (mem_cons_of_mem i hj) hs
    rw [collect, if_neg hpart, ih hrest hnodup.2 ?_ ?_]
    · have hlen : 0 < rest.length := length_pos_of_mem hj
      rw [length_cons, Nat.add_sub_cancel, ← cons_append, ← replicate_succ,
        Nat.sub_add_cancel hlen]
    · intro k hk hin
      rcases Finset.mem_insert.mp hin with rfl | hs
      · exact hnodup.1 hk
      · exact hnew k (mem_cons_of_mem i hk) hs
    · intro k
      rw [← hall k, Finset.mem_insert, mem_cons]
      tauto

namespace Reassembler

lemma pruneOrders_parts (z : Sizes) (r : Reassembler) : (r.pruneOrders z).parts = r.parts := by
  unfold pruneOrders
  split <;> rfl

variable {r : Reassembler} {z : Sizes} {f : Wire.FragView} {incoming : Option FragCtx}
  {key : FragKey} {d : Bytes}

lemma makeRoom_of_hasRoom {est : Nat} (h : r.hasRoom est = true) :
    r.makeRoom z est = (r, true) := by
  rw [makeRoom, makeRoomLoop, if_pos h]

/-- Landing a fragment concerns its own key only. -/
lemma lookup_land_of_ne {key' : FragKey} {p : Partial} {isNew : Bool} {nowMs : Nat}
    (h : key ≠ key') :
    (r.land z key' p isNew f incoming nowMs).2.parts.lookup key = r.parts.lookup key := by
  have hqueue : ∀ s : Reassembler, (if isNew then s.queueSlot z key' nowMs else s).parts = s.parts := by
    intro s
    cases isNew <;> rfl
  simp only [land]
  split
  · split
    · exact AList.lookup_erase_ne h
    · exact AList.lookup_insert_ne h
  split
  · simp only [discard, pruneOrders_parts, hqueue, update]
    rw [AList.lookup_erase_ne h, AList.lookup_insert_ne h]
  · simp only [pruneOrders_parts, hqueue, update]
    exact AList.lookup_insert_ne h

section

variable (z : Sizes) (r : Reassembler) (d : Bytes) (f : Wire.FragView)

/-- A fragment that opens a partial finds room for it, so nothing is evicted. -/
def opensWithRoom : Bool :=
  match identify d f with
  | none => true
  | some (key, _) =>
    f.total = 1 || (r.parts.lookup key).isSome || r.hasRoom (estimate z f)

/-- A fragment that joins a partial stays inside the budget. -/
def joinsInBudget : Bool :=
  match identify d f with
  | none => true
  | some (key, _) =>
    f.total = 1 || (r.parts.lookup key).all fun p =>
      saturatingAdd r.heldBytes (p.charge z f) ≤ fragMaxHeldBytes

end

lemma hasRoom_of_opens (h : r.opensWithRoom z d f = true)
    (hadm : identify d f = some (key, incoming)) (hone : f.total ≠ 1)
    (hnone : r.parts.lookup key = none) : r.hasRoom (estimate z f) = true := by
  simpa [opensWithRoom, hadm, hone, hnone] using h

lemma keyOf_of_identify (h : identify d f = some (key, incoming)) : keyOf f = some key := by
  unfold identify at h
  simp only [ite_none_left_eq_some, bind_eq_bind, bind_eq_some_iff, some.injEq, Prod.mk.injEq] at h
  obtain ⟨-, -, -, k, hk, c, -, -, rfl, -⟩ := h
  exact hk

/-- A fragment of another key leaves the partial of a key alone. -/
lemma lookup_pushFrame_of_ne {nowMs : Nat} (hkey : keyOf f ≠ some key)
    (hroom : r.opensWithRoom z d f = true) :
    (r.pushFrame z d f nowMs).2.parts.lookup key = r.parts.lookup key := by
  unfold pushFrame
  cases hadm : identify d f with
  | none => rfl
  | some out =>
    obtain ⟨key', incoming⟩ := out
    have hne : key ≠ key' := by
      rintro rfl
      exact hkey (keyOf_of_identify hadm)
    simp only
    by_cases hone : f.total = 1
    · rw [if_pos hone]
    rw [if_neg hone]
    cases hget : r.parts.lookup key' with
    | none =>
      simp only [makeRoom_of_hasRoom (hasRoom_of_opens hroom hadm hone hget)]
      exact lookup_land_of_ne hne
    | some p =>
      simp only
      split
      · exact lookup_land_of_ne hne
      · rfl

end Reassembler

/-- A payload with the id of its key and the whole context. -/
def Assembled.of (key : FragKey) (ctx : Option FragCtx) (payload : Bytes) : Assembled where
  wireId := if key.inline then none else some key.id
  sess := ctx.map FragCtx.sess
  addr := ctx.map FragCtx.addr
  src := (ctx.map FragCtx.src).getD false
  payload := payload

namespace FrameSet

variable {w : Wire} {key : FragKey} {ctx : Option FragCtx} {payload : Bytes}
  (fs : FrameSet w key ctx payload)

/-- The pieces of the payload with an index in the set. -/
def pieces (s : Finset Nat) : Nat → Option Bytes :=
  fun i => if i ∈ s then some (piece fs.first fs.unit payload i) else none

/-- A partial that has gathered the pieces with an index in the set. -/
structure Live (p : Partial) (s : Finset Nat) : Prop where
  total : p.total = fs.total
  gathers : p.Gathers (fs.pieces s)
  ctx_or : p.ctx = none ∨ p.ctx = ctx
  ctx_first : 0 ∈ s → p.ctx = ctx

lemma pieces_eq_some {s : Finset Nat} {i : Nat} {b : Bytes} :
    fs.pieces s i = some b ↔ i ∈ s ∧ piece fs.first fs.unit payload i = b := by
  rw [pieces]
  split <;> simp_all

lemma joined_pieces :
    joined (fun i => some (piece fs.first fs.unit payload i)) fs.total.toNat = payload :=
  fs.covers.flatMap_piece rfl

lemma joined_pieces_range :
    joined (fs.pieces (Finset.range fs.total.toNat)) fs.total.toNat = payload := by
  have hcongr : ∀ i < fs.total.toNat, fs.pieces (Finset.range fs.total.toNat) i =
      some (piece fs.first fs.unit payload i) := fun i hi => if_pos (Finset.mem_range.mpr hi)
  rw [joined_congr hcongr, joined_pieces]

lemma length_joined_pieces_le (s : Finset Nat) :
    (joined (fs.pieces s) fs.total.toNat).length ≤ payload.length := by
  have hsub : ∀ i b, fs.pieces s i = some b → some (piece fs.first fs.unit payload i) = some b :=
    fun i b hb => congrArg some (fs.pieces_eq_some.mp hb).2
  have hle := length_joined_le hsub fs.total.toNat
  rw [joined_pieces] at hle
  exact hle

variable {fs} {s : Finset Nat} {p : Partial}

section

variable (hc : p.Counts (fs.pieces s)) (ht : p.total = fs.total)
include hc ht

/-- The common length, once known, is the plan's. -/
lemma unit_eq {a : Nat} (ha : p.unit = some a) : a = fs.unit := by
  obtain ⟨j, b, hj, hj', hb⟩ := hc.unit_of ha
  have hab := hc.middle hj hj' hb
  rw [ha, some.injEq] at hab
  rw [hab, ← (fs.pieces_eq_some.mp hb).2, fs.covers.length_piece_full rfl (ht ▸ hj'),
    if_neg (by omega)]

/-- The length of the first chunk, once known, is the plan's. -/
lemma first_eq {a : Nat} (ha : p.firstLen = some a) : a = fs.first := by
  have h2 := hc.two_le
  rw [hc.first, map_eq_some_iff] at ha
  obtain ⟨b, hb, rfl⟩ := ha
  rw [← (fs.pieces_eq_some.mp hb).2, fs.covers.length_piece_full rfl (ht ▸ (by omega)), if_pos rfl]

/-- A known place is the plan's. -/
lemma start_eq {i : Nat} (hpl : p.Placeable i) : p.start i = pieceStart fs.first fs.unit i := by
  cases i with
  | zero => rfl
  | succ k =>
    obtain ⟨a, ha⟩ := isSome_iff_exists.mp (hpl.1 (Nat.succ_ne_zero k))
    cases k with
    | zero => simp [start, pieceStart, ha, first_eq hc ht ha]
    | succ k =>
      obtain ⟨b, hb⟩ := isSome_iff_exists.mp (hpl.2 (by omega))
      rw [start, ha, hb, first_eq hc ht ha, unit_eq hc ht hb, getD_some, getD_some]

end

variable {i : Nat} {d : Bytes} {f : Wire.FragView} {carried : Option FragCtx}

lemma withChunk_pieces
    (hf : IsFragment w key ctx fs.total i (piece fs.first fs.unit payload i) d f carried) :
    withChunk (fs.pieces s) f = fs.pieces (insert i s) := by
  funext j
  by_cases hj : j = i
  · subst hj
    rw [withChunk, hf.idx_eq, hf.chunk_eq, Function.update_self, pieces,
      if_pos (Finset.mem_insert_self j s)]
  · rw [withChunk_of_ne (by rw [hf.idx_eq]; exact hj)]
    simp [pieces, hj]

section

variable (hc : p.Counts (fs.pieces s)) (ht : p.total = fs.total)
  (hf : IsFragment w key ctx fs.total i (piece fs.first fs.unit payload i) d f carried)
  (hi : i < fs.total.toNat) (hnew : i ∉ s)
include hc ht hf hi hnew

lemma fits : p.Fits (fs.pieces s) f := by
  have hidx : f.idx.toNat < p.total.toNat := by
    rw [hf.idx_eq, ht]
    exact hi
  have hfresh : fs.pieces s f.idx.toNat = none := by
    rw [hf.idx_eq, pieces, if_neg hnew]
  refine ⟨hf.total_eq.trans ht.symm, hidx, hfresh, ?_, ?_⟩
  · intro a hmid ha
    obtain ⟨h1, h2⟩ := (isMiddle_iff (by rw [hf.total_eq, ← ht]; exact hidx)).mp hmid
    rw [hf.idx_eq] at h1 h2
    rw [hf.total_eq] at h2
    rw [unit_eq hc ht ha, hf.chunk_eq, fs.covers.length_piece_full rfl h2, if_neg (by omega)]
  · have hlen := length_joined_update hidx hfresh f.chunk
    rw [hc.bytes, ← hlen, show Function.update (fs.pieces s) f.idx.toNat (some f.chunk) =
      fs.pieces (insert i s) from withChunk_pieces hf, ht]
    exact (fs.length_joined_pieces_le _).trans fs.le_payload

lemma place_le {pos : Nat} (hpos : p.place f = some pos) :
    pos + f.chunk.length ≤ fragMaxPayload := by
  have hcn := hc.note (fits hc ht hf hi hnew)
  obtain ⟨hpl, rfl⟩ := hcn.posOf_iff.mp hpos
  rw [withChunk_pieces hf] at hcn
  have hlt := fs.covers.start_lt hi
  have hmax := fs.le_payload
  rw [start_eq hcn ht hpl, hf.idx_eq, hf.chunk_eq, length_piece]
  omega

end

variable (z : Sizes) (r : Reassembler) (isNew : Bool) (nowMs : Nat)

/-- The context after a fragment of the set. -/
lemma ctx_orElse {old : Option FragCtx} (hold : old = none ∨ old = ctx)
    (hcar : carried = none ∨ carried = ctx) :
    ((old <|> carried) = none ∨ (old <|> carried) = ctx) ∧
      (old = ctx ∨ carried = ctx → (old <|> carried) = ctx) := by
  rcases hold with hold | hold <;> rcases hcar with hcar | hcar <;> rw [hold, hcar] <;>
    cases ctx <;> simp

lemma land_piece (h : fs.Live p s)
    (hf : IsFragment w key ctx fs.total i (piece fs.first fs.unit payload i) d f carried)
    (hi : i < fs.total.toNat) (hnew : i ∉ s) :
    (insert i s = Finset.range fs.total.toNat →
      (r.land z key p isNew f carried nowMs).1 = some (.of key ctx payload) ∧
        (r.land z key p isNew f carried nowMs).2.parts.lookup key = none) ∧
    (insert i s ≠ Finset.range fs.total.toNat →
      (r.land z key p isNew f carried nowMs).1 = none ∧
        ∃ q, (r.land z key p isNew f carried nowMs).2.parts.lookup key = some q ∧
          fs.Live q (insert i s)) := by
  have hg := h.gathers.withCtx (p.ctx <|> carried)
  obtain ⟨hor, hall⟩ := ctx_orElse h.ctx_or hf.carried_or
  generalize hp' : { p with ctx := p.ctx <|> carried } = p' at hg
  have ht' : p'.total = fs.total := by rw [← hp']; exact h.total
  have hctx' : p'.ctx = (p.ctx <|> carried) := by rw [← hp']
  have hplace : ∀ pos, p'.place f = some pos → pos + f.chunk.length ≤ fragMaxPayload :=
    fun pos hpos => place_le hg.counts ht' hf hi hnew hpos
  obtain ⟨hq, hsame⟩ := hg.absorb z (fits hg.counts ht' hf hi hnew) hplace
  rw [withChunk_pieces hf] at hq
  have hbound : ¬(p'.place f).any
      (fun pos => decide (saturatingAdd pos f.chunk.length > fragMaxPayload)) = true := by
    cases hpos : p'.place f with
    | none => simp
    | some pos =>
      have hle := hplace pos hpos
      rw [any_some, decide_eq_true_eq, saturatingAdd]
      omega
  have hparts : ∀ t : Reassembler,
      (if isNew then t.queueSlot z key nowMs else t).parts = t.parts := by
    intro t
    cases isNew <;> rfl
  have hqt : (p'.absorb z f).total = fs.total := hsame.total.trans ht'
  have hdone : (p'.absorb z f).got = want f.total ↔ insert i s = Finset.range fs.total.toNat := by
    rw [hf.total_eq, ← hqt, hq.counts.got_eq_want, hqt]
    constructor
    · intro hgot
      apply Finset.ext
      intro j
      rw [Finset.mem_range]
      constructor
      · intro hj
        rw [← hqt]
        exact hq.counts.lt_total (fs.pieces_eq_some.mpr ⟨hj, rfl⟩)
      · intro hj
        obtain ⟨b, hb⟩ := isSome_iff_exists.mp (hgot j hj)
        exact (fs.pieces_eq_some.mp hb).1
    · intro heq j hj
      rw [heq, fs.pieces_eq_some.mpr ⟨Finset.mem_range.mpr hj, rfl⟩]
      rfl
  have hqctx : (p'.absorb z f).ctx = (p.ctx <|> carried) := hsame.ctx.trans hctx'
  have hzero : 0 ∈ insert i s → (p.ctx <|> carried) = ctx := by
    intro h0
    rcases Finset.mem_insert.mp h0 with hi0 | hs0
    · exact hall (.inr (hf.carried_first hi0.symm))
    · exact hall (.inl (h.ctx_first hs0))
  simp only [land, hp', if_neg hbound]
  constructor
  · intro hfull
    rw [if_pos (hdone.mpr hfull)]
    have hbuf := hq.buf_eq (hq.counts.got_eq_want.mp (by rw [hqt, ← hf.total_eq]; exact hdone.mpr hfull))
    rw [hqt, hfull, fs.joined_pieces_range] at hbuf
    have hpos := fs.covers.pos
    have hfin := hzero (by rw [hfull]; exact Finset.mem_range.mpr hpos)
    refine ⟨?_, ?_⟩
    · rw [assembled, hbuf, hqctx, hfin, Assembled.of, some.injEq]
      congr 1
      cases hc : ctx with
      | some c => rfl
      | none =>
        have hcar : carried = none := by
          rcases hf.carried_or with hn | hn
          · exact hn
          · exact hn.trans hc
        rw [hf.src_eq, hcar]
        rfl
    · simp only [Reassembler.discard]
      exact AList.lookup_erase _ _
  · intro hpart
    rw [if_neg (fun hd => hpart (hdone.mp hd))]
    refine ⟨rfl, p'.absorb z f, ?_, hqt, hq, ?_, ?_⟩
    · simp only [pruneOrders_parts, hparts, update]
      exact AList.lookup_insert _
    · rw [hqctx]
      exact hor
    · rw [hqctx]
      exact hzero

/-- The table holds exactly the pieces that arrived since the payload was last yielded. -/
def Tracks (fs : FrameSet w key ctx payload) (r : Reassembler) (s : Finset Nat) : Prop :=
  s ≠ Finset.range fs.total.toNat ∧
    ((s = ∅ ∧ r.parts.lookup key = none) ∨ ∃ p, r.parts.lookup key = some p ∧ fs.Live p s)

lemma tracks_empty {r : Reassembler} (h : r.parts.lookup key = none) : fs.Tracks r ∅ := by
  refine ⟨?_, .inl ⟨rfl, h⟩⟩
  intro hempty
  have hpos := fs.covers.pos
  exact absurd (hempty ▸ Finset.mem_range.mpr hpos) (Finset.notMem_empty 0)

lemma live_new (h2 : 2 ≤ fs.total.toNat) (hcar : carried = none ∨ carried = ctx) :
    fs.Live (.new fs.total carried nowMs) ∅ :=
  ⟨rfl, gathers_new carried nowMs h2 fs.le_total, hcar,
    fun h0 => absurd h0 (Finset.notMem_empty 0)⟩

lemma push_single {nowMs : Nat} (hone : fs.total = 1)
    (hf : IsFragment w key ctx fs.total 0 (piece fs.first fs.unit payload 0) d f carried) :
    r.pushFrame z d f nowMs = (some (.of key ctx payload), r) := by
  have hwhole : piece fs.first fs.unit payload 0 = payload := by
    have hjoined := fs.joined_pieces
    rw [hone] at hjoined
    simpa [joined] using hjoined
  have hrest : d.drop f.chunkOff = payload := by
    rw [← Wire.chunk_of_decodeFrag hf.decoded, hf.chunk_eq, hwhole]
  have hcar := hf.carried_first rfl
  unfold pushFrame
  rw [hf.admitted]
  simp only
  rw [if_pos (hf.total_eq.trans hone), hrest, hf.wireId_eq, hf.src_eq, hcar]
  rfl

/-- An arriving piece moves the reassembler as the collector moves. -/
lemma push_piece {r : Reassembler} (h : fs.Tracks r s)
    (hf : IsFragment w key ctx fs.total i (piece fs.first fs.unit payload i) d f carried)
    (hi : i < fs.total.toNat) (hroom : r.opensWithRoom z d f = true)
    (hbudget : r.joinsInBudget z d f = true) :
    (insert i s = Finset.range fs.total.toNat →
      (r.pushFrame z d f nowMs).1 = some (.of key ctx payload) ∧
        fs.Tracks (r.pushFrame z d f nowMs).2 ∅) ∧
    (insert i s ≠ Finset.range fs.total.toNat →
      (r.pushFrame z d f nowMs).1 = none ∧ fs.Tracks (r.pushFrame z d f nowMs).2 (insert i s)) := by
  obtain ⟨hpart, hstate⟩ := h
  by_cases hone : fs.total = 1
  · have hi0 : i = 0 := by
      rw [hone, UInt8.toNat_one] at hi
      omega
    subst hi0
    rw [push_single z r hone hf]
    rcases hstate with ⟨rfl, hnone⟩ | ⟨p, -, hlive⟩
    · refine ⟨fun _ => ⟨rfl, tracks_empty hnone⟩, fun hne => absurd ?_ hne⟩
      rw [hone]
      rfl
    have h2 := hlive.gathers.counts.two_le
    rw [hlive.total, hone, UInt8.toNat_one] at h2
    omega
  have hne1 : f.total ≠ 1 := fun h1 => hone (hf.total_eq.symm.trans h1)
  have h2 : 2 ≤ fs.total.toNat := by
    have hpos := fs.covers.pos
    have hne : fs.total.toNat ≠ 1 := fun h1 => hone (UInt8.toNat_inj.mp h1)
    omega
  unfold pushFrame
  rw [hf.admitted]
  simp only
  rw [if_neg hne1]
  rcases hstate with ⟨rfl, hnone⟩ | ⟨p, hget, hlive⟩
  · rw [hnone]
    simp only [makeRoom_of_hasRoom (hasRoom_of_opens hroom hf.admitted hne1 hnone)]
    rw [hf.total_eq]
    obtain ⟨hfull, hsome⟩ := land_piece z r true nowMs
      (live_new nowMs h2 hf.carried_or) hf hi (Finset.notMem_empty i)
    exact ⟨fun hd => ⟨(hfull hd).1, tracks_empty (hfull hd).2⟩,
      fun hd => ⟨(hsome hd).1, hd, .inr (hsome hd).2⟩⟩
  rw [hget]
  simp only
  have hidx : f.idx.toNat < f.total.toNat := by
    rw [hf.idx_eq, hf.total_eq]
    exact hi
  have hacc := hlive.gathers.counts.accepts_iff carried hidx
  by_cases hin : i ∈ s
  · have hrefuse : ¬p.accepts f carried = true := by
      intro ha
      have hfresh := (hacc.mp ha).1.fresh
      rw [hf.idx_eq, pieces, if_pos hin] at hfresh
      exact absurd hfresh (by simp)
    rw [Finset.insert_eq_of_mem hin]
    rw [if_neg (by simp [hrefuse])]
    exact ⟨fun hd => absurd hd hpart, fun _ => ⟨rfl, hpart, .inr ⟨p, hget, hlive⟩⟩⟩
  have hagree : ctxAgrees p.ctx carried = true := by
    rcases hlive.ctx_or with ho | ho <;> rcases hf.carried_or with hc | hc <;>
      rw [ho, hc] <;> cases ctx <;> simp [ctxAgrees]
  have hok := hacc.mpr ⟨fits hlive.gathers.counts hlive.total hf hi hin, hagree⟩
  rw [hok, Bool.true_and, if_pos (decide_eq_true
    (by simpa [joinsInBudget, hf.admitted, hne1, hget] using hbudget))]
  obtain ⟨hfull, hsome⟩ := land_piece z r false nowMs hlive hf hi hin
  exact ⟨fun hd => ⟨(hfull hd).1, tracks_empty (hfull hd).2⟩,
    fun hd => ⟨(hsome hd).1, hd, .inr (hsome hd).2⟩⟩

end FrameSet

/-- Decode a datagram and push it. -/
def Reassembler.receive (z : Sizes) (w : Wire) (r : Reassembler) (d : Bytes) (nowMs : Nat) :
    Option Assembled × Reassembler :=
  match w.decodeFrag d with
  | .ok f => r.pushFrame z d f nowMs
  | .error _ => (none, r)

/-- A datagram that arrives: a frame of the set, or another one. -/
inductive Arrival where
  | own (i : Nat)
  | other (d : Bytes)

namespace Arrival

section

variable (z : Sizes) (w : Wire) (key : FragKey) (frames : List Bytes) (r : Reassembler)

/-- The arriving datagram. -/
def datagram : Arrival → Bytes
  | own i => frames.getD i []
  | other d => d

/-- What the reassembler yields when frames of the set arrive. -/
def ownOutputs (z : Sizes) (w : Wire) (frames : List Bytes) :
    Reassembler → List (Arrival × Nat) → List (Option Assembled)
  | _, [] => []
  | r, (own i, nowMs) :: rest =>
    let out := r.receive z w ((own i).datagram frames) nowMs
    out.1 :: ownOutputs z w frames out.2 rest
  | r, (other d, nowMs) :: rest => ownOutputs z w frames (r.receive z w d nowMs).2 rest

/-- The indexes of the arriving frames of the set. -/
def ownIndexes : List (Arrival × Nat) → List Nat
  | [] => []
  | (own i, _) :: rest => i :: ownIndexes rest
  | (other _, _) :: rest => ownIndexes rest

/-- Nothing is evicted for the arriving datagram; one that is not of the set has another key. -/
def quiet : Arrival → Bool
  | own i =>
    i < frames.length &&
      (match w.decodeFrag ((own i).datagram frames) with
        | .ok f => r.opensWithRoom z ((own i).datagram frames) f
        | .error _ => true)
  | other d =>
    match w.decodeFrag d with
    | .ok f => keyOf f ≠ some key && r.opensWithRoom z d f
    | .error _ => true

/-- An arriving frame of the set stays inside the budget. -/
def inBudget : Arrival → Bool
  | own i =>
    match w.decodeFrag ((own i).datagram frames) with
    | .ok f => r.joinsInBudget z ((own i).datagram frames) f
    | .error _ => true
  | other _ => true

end

/-- Every arrival of a run passes a test in the state it meets. -/
def allAlong (z : Sizes) (w : Wire) (frames : List Bytes) (test : Reassembler → Arrival → Bool) :
    Reassembler → List (Arrival × Nat) → Bool
  | _, [] => true
  | r, (a, nowMs) :: rest => test r a &&
      allAlong z w frames test (r.receive z w (a.datagram frames) nowMs).2 rest

end Arrival

open Arrival in
/-- Over a quiet run inside the budget the reassembler yields the payload exactly when the collector
is done. -/
lemma FrameSet.ownOutputs_eq {w : Wire} {key : FragKey} {ctx : Option FragCtx} {payload : Bytes}
    (fs : FrameSet w key ctx payload) (z : Sizes) {r : Reassembler} {s : Finset Nat}
    (h : fs.Tracks r s) {run : List (Arrival × Nat)}
    (hquiet : allAlong z w fs.frames (quiet z w key fs.frames) r run = true)
    (hbudget : allAlong z w fs.frames (inBudget z w fs.frames) r run = true) :
    ownOutputs z w fs.frames r run =
      (collect fs.frames.length s (ownIndexes run)).map fun done =>
        if done then some (.of key ctx payload) else none := by
  induction run generalizing r s with
  | nil => rfl
  | cons e rest ih =>
    obtain ⟨a, nowMs⟩ := e
    rw [allAlong, Bool.and_eq_true] at hquiet hbudget
    obtain ⟨hquiet, hquiet'⟩ := hquiet
    obtain ⟨hbudget, hbudget'⟩ := hbudget
    cases a with
    | own i =>
      rw [quiet, Bool.and_eq_true, decide_eq_true_eq, fs.length_frames] at hquiet
      obtain ⟨hi, hroom⟩ := hquiet
      obtain ⟨d, f, carried, hget, hf⟩ := fs.fragment i hi
      have hd : (own i).datagram fs.frames = d := by
        rw [datagram, getD_eq_getElem?_getD, hget, getD_some]
      have hrecv : r.receive z w d nowMs = r.pushFrame z d f nowMs := by
        rw [receive, hf.decoded]
      rw [hd, hf.decoded] at hroom
      rw [inBudget, hd, hf.decoded] at hbudget
      rw [hd, hrecv] at hquiet' hbudget'
      obtain ⟨hfull, hpart⟩ := FrameSet.push_piece z nowMs h hf hi hroom hbudget
      rw [ownOutputs, ownIndexes, collect, fs.length_frames]
      simp only [hd, hrecv]
      by_cases hdone : insert i s = Finset.range fs.total.toNat
      · rw [if_pos hdone, map_cons, (hfull hdone).1, ih (hfull hdone).2 hquiet' hbudget',
          fs.length_frames]
        rfl
      rw [if_neg hdone, map_cons, (hpart hdone).1, ih (hpart hdone).2 hquiet' hbudget',
        fs.length_frames]
      rfl
    | other d =>
      rw [ownOutputs, ownIndexes]
      apply ih _ hquiet' hbudget'
      rw [quiet] at hquiet
      rw [datagram, receive]
      cases hdec : w.decodeFrag d with
      | error e => exact h
      | ok f =>
        rw [hdec, Bool.and_eq_true, decide_eq_true_eq] at hquiet
        obtain ⟨hkey, hroom⟩ := hquiet
        refine ⟨h.1, ?_⟩
        simp only
        rw [lookup_pushFrame_of_ne hkey hroom]
        exact h.2

open Arrival in
/-- Fragmentation and reassembly together are the identity. A payload that was sent without
failure is yielded, with its id and the context of its flow, exactly when all its frames have
arrived since it was last yielded. -/
theorem fragments_reassemble (z : Sizes) (fr : Fragmenter) (space : Nat)
    (verdict : Nat → DatagramSend) (limit : Nat) (flow : FragFlow) (payload : Bytes)
    (hsent : (fr.send space verdict limit flow payload).2.1.failed = none)
    (hflow : flow.Described fr.wire) (r : Reassembler)
    (hnone : r.parts.lookup (flow.key fr.nextId) = none) (run : List (Arrival × Nat)) :
    let frames := (fr.send space verdict limit flow payload).1
    allAlong z fr.wire frames (quiet z fr.wire (flow.key fr.nextId) frames) r run = true →
    allAlong z fr.wire frames (inBudget z fr.wire frames) r run = true →
    ownOutputs z fr.wire frames r run =
        ((collect frames.length ∅ (ownIndexes run)).map fun done =>
          if done then some (flow.whole fr.wire payload) else none) ∧
      ((ownIndexes run).Perm (List.range frames.length) →
        (ownOutputs z fr.wire frames r run).filterMap id = [flow.whole fr.wire payload]) := by
  intro frames hquiet hbudget
  obtain ⟨fs, hframes⟩ := Fragmenter.exists_frameSet hsent hflow
  rw [show frames = fs.frames from hframes.symm] at hquiet hbudget ⊢
  have hwhole : flow.whole fr.wire payload =
      .of (flow.key fr.nextId) (flow.context fr.wire) payload := by
    cases flow <;> rfl
  have hout := fs.ownOutputs_eq z (FrameSet.tracks_empty hnone) hquiet hbudget
  rw [← hwhole] at hout
  refine ⟨hout, ?_⟩
  intro hperm
  have hpos : 0 < fs.frames.length := fs.length_frames ▸ fs.covers.pos
  have hne : ownIndexes run ≠ [] := by
    intro hnil
    rw [hnil, nil_perm, range_eq_nil] at hperm
    omega
  rw [hout, collect_of_nodup hne (hperm.nodup_iff.mpr nodup_range) (by simp) (by
    intro j
    rw [hperm.mem_iff, mem_range]
    simp)]
  rw [map_append, filterMap_append, map_replicate]
  simp

open Arrival in
theorem fragments_reassemble_reversed :
    (ownOutputs ⟨168, 40, 24⟩ .rev3 ((Fragmenter.mk 7 false .rev3).send 0 (fun _ => .sent) 12
      (.steady 2) [1, 2, 3, 4, 5]).1 .new [(own 1, 0), (own 0, 0)]).filterMap id =
        [⟨some 2, none, none, false, [1, 2, 3, 4, 5]⟩] :=
  (fragments_reassemble ⟨168, 40, 24⟩ ⟨7, false, .rev3⟩ 0 (fun _ => .sent) 12 (.steady 2)
    [1, 2, 3, 4, 5] (by decide +kernel) (by decide) .new (by decide +kernel)
    [(own 1, 0), (own 0, 0)] (by decide +kernel) (by decide +kernel)).2 (by decide +kernel)

open Arrival in
/-- Frames that arrive once more yield the payload once more. A fragment that the budget has no
room for is refused, so a payload may not be yielded although all its frames arrived and
nothing was evicted. The inline form of rev3 loses the source mark, and every address its flow
label. -/
theorem fragments_yield_again_or_never :
    let z : Sizes := ⟨168, 40, 24⟩
    let sent := (Fragmenter.mk 7 false .rev3).send 0 (fun _ => .sent) 609 (.steady 2)
      (List.replicate 1000 1)
    let again : List (Arrival × Nat) := [(own 0, 0), (own 1, 0), (own 0, 0), (own 1, 0)]
    let crowd : List (Arrival × Nat) := (List.range 32).map fun k =>
      (other ((Wire.rev3.encodeFragSteady 4 (UInt32.ofNat k) 0 (if k < 31 then 64 else 6)
        (List.replicate 128 0) 137).getD []), 0)
    let full : List (Arrival × Nat) := (own 1, 0) :: crowd ++ [(own 0, 0)]
    let marked := (Fragmenter.mk 7 false .rev3).send 0 (fun _ => .sent) 600
      (.inline 9 (.ip (.v6 ⟨0x20010db8000000000000000000000001⟩ 53 5 0)) true) [1, 2, 3]
    sent.2.1.failed = none ∧ marked.2.1.failed = none ∧
      (allAlong z .rev3 sent.1 (quiet z .rev3 ⟨false, 2, 7⟩ sent.1) .new again = true ∧
        ((ownOutputs z .rev3 sent.1 .new again).filterMap id).length = 2) ∧
      (allAlong z .rev3 sent.1 (quiet z .rev3 ⟨false, 2, 7⟩ sent.1) .new full = true ∧
        ((ownOutputs z .rev3 sent.1 .new full).filterMap id).length = 0) ∧
      ownOutputs z .rev3 marked.1 .new [(own 0, 0)] =
        [some ⟨none, some 9, some (.ip (.v6 ⟨0x20010db8000000000000000000000001⟩ 53 0 0)), false,
          [1, 2, 3]⟩] := by
  decide +kernel

end MyQuic2
