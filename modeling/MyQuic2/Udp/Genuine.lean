import MyQuic2.Core.Run
import MyQuic2.Udp.Reassembly

/-!
# Where a reassembled payload comes from

Whatever fragments arrive, in whatever order and however partials are dropped
meanwhile, a payload that is put together consists of one accepted chunk per
index. Its context is that of one of these fragments, as long as no fragment that
was refused for its place has left its context behind.
-/

namespace MyQuic2

open List Function Option Partial Reassembler

namespace Reassembler

/-- Every partial of the first table is in the second. -/
def SubTable (r' r : Reassembler) : Prop :=
  ∀ key p, r'.parts.lookup key = some p → r.parts.lookup key = some p

lemma SubTable.refl (r : Reassembler) : SubTable r r := fun _ _ h => h

lemma SubTable.trans {r₁ r₂ r₃ : Reassembler} (h : SubTable r₁ r₂) (h' : SubTable r₂ r₃) :
    SubTable r₁ r₃ := fun key p hp => h' key p (h key p hp)

lemma subTable_erase (r : Reassembler) (key : FragKey) (held orderBytes : Nat)
    (order : List (FragKey × Nat)) : SubTable ⟨r.parts.erase key, order, held, orderBytes⟩ r := by
  intro key' p hp
  exact (Map.lookup_erase_iff.mp hp).2

lemma subTable_discard (r : Reassembler) (key : FragKey) (p : Partial) :
    SubTable (r.discard key p) r := subTable_erase r key _ _ _

variable (z : Sizes) (nowMs : Nat) (r : Reassembler)

lemma subTable_retain (keep : FragKey → Partial → Bool) (held : Nat) :
    SubTable { r with parts := r.parts.retain keep, held := held } r := by
  intro key p hp
  rw [Map.lookup_retain, filter_eq_some_iff] at hp
  exact hp.1

/-- What evictions and the sweep make of a table, from the front of its queue: a stale slot goes, a
partial goes with its slot, or, without slots, a partial alone. -/
inductive Swept (z : Sizes) (r : Reassembler) : Reassembler → Prop
  | refl : Swept z r r
  | stale {r' : Reassembler} {key : FragKey} {firstMs : Nat} {rest : List (FragKey × Nat)}
    (h : Swept z r r') (horder : r'.order = (key, firstMs) :: rest)
    (hstale : ∀ p, r'.parts.lookup key = some p → p.firstMs ≠ firstMs) : Swept z r (r'.popSlot z)
  | live {r' : Reassembler} {key : FragKey} {p : Partial} {rest : List (FragKey × Nat)}
    (h : Swept z r r') (horder : r'.order = (key, p.firstMs) :: rest)
    (hget : r'.parts.lookup key = some p) : Swept z r ((r'.popSlot z).discard key p)
  | alone {r' : Reassembler} {key : FragKey} {p : Partial} (h : Swept z r r')
    (hget : r'.parts.lookup key = some p) : Swept z r (r'.discard key p)

section

variable {z r} {r₀ : Reassembler} (h : Swept z r₀ r)
include h

lemma Swept.subTable : SubTable r r₀ := by
  induction h with
  | refl => exact .refl r₀
  | stale _ _ _ ih => exact ih
  | live _ _ _ ih | alone _ _ ih => exact (subTable_discard _ _ _).trans ih

lemma Swept.order : r.order.Sublist r₀.order := by
  induction h with
  | refl => exact List.Sublist.refl _
  | stale _ _ _ ih | live _ _ _ ih => exact (tail_sublist _).trans ih
  | alone _ _ ih => exact ih

lemma Swept.evictFrom {slots : List (FragKey × Nat)} (horder : r.order = slots) :
    Swept z r₀ (evictFrom z slots r).1 := by
  induction slots generalizing r with
  | nil =>
    unfold Reassembler.evictFrom
    split
    · exact h
    · rename_i hparts
      exact h.alone (AList.mem_lookup_iff.mpr (by simp [hparts]))
  | cons slot rest ih =>
    obtain ⟨key, firstMs⟩ := slot
    have hparts : (r.popSlot z).parts.lookup key = r.parts.lookup key := rfl
    have hrest : (r.popSlot z).order = rest := by rw [popSlot, horder, tail_cons]
    cases hget : r.parts.lookup key with
    | none =>
      simp only [Reassembler.evictFrom, hparts, hget]
      exact ih (h.stale horder (by simp [hget])) hrest
    | some p =>
      by_cases hms : p.firstMs = firstMs
      · subst hms
        simp only [Reassembler.evictFrom, hparts, hget, if_true]
        exact h.live horder hget
      · simp only [Reassembler.evictFrom, hparts, hget, if_neg hms]
        exact ih (h.stale horder (by simpa [hget] using hms)) hrest

lemma Swept.makeRoomLoop (est left : Nat) : Swept z r₀ (makeRoomLoop z est left r).1 := by
  induction left generalizing r with
  | zero => exact h
  | succ left ih =>
    unfold Reassembler.makeRoomLoop
    split
    · exact h
    have hevict := h.evictFrom rfl
    split <;> rename_i heq <;> rw [evictOldest] at heq <;> rw [heq] at hevict
    · exact ih hevict
    · exact hevict

lemma Swept.expireFrom (nowMs : Nat) {slots : List (FragKey × Nat)} (horder : r.order = slots) :
    Swept z r₀ (expireFrom z nowMs slots r) := by
  induction slots generalizing r with
  | nil => exact h
  | cons slot rest ih =>
    obtain ⟨key, firstMs⟩ := slot
    have hrest : (r.popSlot z).order = rest := by rw [popSlot, horder, tail_cons]
    cases hget : r.parts.lookup key with
    | none =>
      simp only [Reassembler.expireFrom, hget]
      exact ih (h.stale horder (by simp [hget])) hrest
    | some p =>
      by_cases hms : p.firstMs = firstMs
      · subst hms
        simp only [Reassembler.expireFrom, hget, if_true]
        split
        · exact h
        · exact ih (h.live horder hget) hrest
      · simp only [Reassembler.expireFrom, hget, if_neg hms]
        exact ih (h.stale horder (by simpa [hget] using hms)) hrest

end

lemma swept_makeRoom (est : Nat) : Swept z r (r.makeRoom z est).1 := Swept.refl.makeRoomLoop est _

lemma swept_expireFrom : Swept z r (expireFrom z nowMs r.order r) := Swept.refl.expireFrom nowMs rfl

lemma subTable_expire (nowMs : Nat) : SubTable (r.expire z nowMs) r := by
  intro key p hp
  rw [expire, pruneOrders_parts] at hp
  exact (swept_expireFrom z nowMs r).subTable key p hp

lemma subTable_dropSession (session : UInt32) :
    SubTable (r.dropSession session) r := subTable_retain r _ _

lemma subTable_dropFlow (wireId : UInt32) : SubTable (r.dropFlow wireId) r := by
  unfold dropFlow
  split
  · exact .refl r
  · exact subTable_retain r _ _

/-- The place of a fragment lies behind the largest payload. -/
def pastEnd (p : Partial) (f : Wire.FragView) : Bool :=
  (p.place f).any fun pos => saturatingAdd pos f.chunk.length > fragMaxPayload

/-- The fragment, if a partial takes it in. -/
def taken (d : Bytes) (f : Wire.FragView) (nowMs : Nat) : List Wire.FragView :=
  match identify d f with
  | none => []
  | some (key, incoming) =>
    if f.total = 1 then []
    else
      match r.parts.lookup key with
      | some p =>
        if p.accepts f incoming &&
            saturatingAdd r.heldBytes (p.charge z f) ≤ fragMaxHeldBytes then
          if pastEnd p f then [] else [f]
        else []
      | none =>
        if (r.makeRoom z (estimate z f)).2 then
          if pastEnd (Partial.new f.total incoming nowMs) f then [] else [f]
        else []

/-- A fragment that passes the checks and is then refused for its place leaves its context with a
partial that had none. -/
def leavesContext (d : Bytes) (f : Wire.FragView) : Bool :=
  match identify d f with
  | some (key, some ctx) =>
    (r.parts.lookup key).any fun p =>
      p.ctx.isNone && (p.accepts f (some ctx) &&
        saturatingAdd r.heldBytes (p.charge z f) ≤ fragMaxHeldBytes) && pastEnd p f
  | _ => false

end Reassembler

/-- The chunks of a table of fragments. -/
def chunksOf (e : Nat → Option Wire.FragView) (i : Nat) : Option Bytes :=
  (e i).map Wire.FragView.chunk

/-- A partial has gathered the chunks of a table of accepted fragments, one per index, and its
context is one of theirs. -/
structure Provenance (log : List Wire.FragView) (key : FragKey) (p : Partial)
    (e : Nat → Option Wire.FragView) : Prop where
  gathers : p.Gathers (chunksOf e)
  mem : ∀ i f, e i = some f → f ∈ log
  key_eq : ∀ i f, e i = some f → keyOf f = some key
  total_eq : ∀ i f, e i = some f → f.total = p.total
  idx_eq : ∀ i f, e i = some f → f.idx.toNat = i
  ctx_some : ∀ ctx, p.ctx = some ctx → ∃ i f, e i = some f ∧ contextOf f = some (some ctx)

/-- A payload is genuine: the chunks of accepted fragments of one key and one total, exactly one
for each index and in their order, within the largest payload, and with the context of one of
these fragments. -/
def Genuine (log : List Wire.FragView) (a : Assembled) : Prop :=
  ∃ (key : FragKey) (total : Nat) (e : Nat → Wire.FragView),
    (∀ i < total, e i ∈ log ∧ keyOf (e i) = some key ∧ (e i).total.toNat = total ∧
      (e i).idx.toNat = i) ∧
    a.payload = (List.range total).flatMap (fun i => (e i).chunk) ∧
    a.payload.length ≤ fragMaxPayload ∧
    ∃ i < total, a.sess = (e i).sess ∧ a.addr = (e i).addr ∧ a.src = (e i).src

section

variable {log : List Wire.FragView} {key : FragKey} {p : Partial}
  {e : Nat → Option Wire.FragView} {f : Wire.FragView}

lemma Provenance.mono {log' : List Wire.FragView} (h : Provenance log key p e)
    (hlog : ∀ f ∈ log, f ∈ log') : Provenance log' key p e :=
  ⟨h.gathers, fun i f he => hlog f (h.mem i f he), h.key_eq, h.total_eq, h.idx_eq, h.ctx_some⟩

lemma chunksOf_update :
    chunksOf (Function.update e f.idx.toNat (some f)) = withChunk (chunksOf e) f := by
  funext i
  by_cases hi : i = f.idx.toNat
  · subst hi
    simp [chunksOf, withChunk]
  · simp [chunksOf, withChunk, update_of_ne hi]

/-- The session, the address and the mark of a fragment with a context are the context's. -/
lemma fields_of_contextOf {ctx : FragCtx} (h : contextOf f = some (some ctx)) :
    f.sess = some ctx.sess ∧ f.addr = some ctx.addr ∧ f.src = ctx.src := by
  unfold contextOf at h
  split at h
  · rename_i sess addr hsess haddr
    cases h
    exact ⟨hsess, haddr, rfl⟩
  · cases h
  · cases h

lemma fields_of_contextOf_none (h : contextOf f = some none) : f.sess = none ∧ f.addr = none := by
  unfold contextOf at h
  split at h
  · cases h
  · rename_i hsess haddr
    exact ⟨hsess, haddr⟩
  · cases h

/-- The table after a fragment is taken in. -/
lemma Provenance.absorb (z : Sizes) {incoming : Option FragCtx} (h : Provenance log key p e)
    (hfits : p.Fits (chunksOf e) f) (hend : pastEnd p f = false)
    (hkey : keyOf f = some key) (hctx : contextOf f = some incoming) :
    Provenance (log ++ [f]) key ((named p incoming).absorb z f)
        (Function.update e f.idx.toNat (some f)) ∧
      ((named p incoming).absorb z f).ctx = (p.ctx <|> incoming) := by
  have hgathers := h.gathers.withCtx (p.ctx <|> incoming)
  have hfits' : (named p incoming).Fits (chunksOf e) f :=
    ⟨hfits.total, hfits.idx_lt, hfits.fresh, hfits.width, hfits.bytes⟩
  have hplace : ∀ pos, (named p incoming).place f = some pos →
      pos + f.chunk.length ≤ fragMaxPayload := by
    intro pos hpos
    have hpos' : p.place f = some pos := hpos
    rw [pastEnd, hpos', any_some, decide_eq_false_iff_not] at hend
    rw [saturatingAdd] at hend
    have hmax : fragMaxPayload = 8192 := rfl
    simp only [usizeSize] at hend
    omega
  obtain ⟨hafter, hsame⟩ := hgathers.absorb z hfits' hplace
  have htotal : ((named p incoming).absorb z f).total = p.total := hsame.total
  have hctx' : ((named p incoming).absorb z f).ctx = (p.ctx <|> incoming) := hsame.ctx
  -- An entry of the new table is the new fragment or an old entry.
  have hcase : ∀ i g, Function.update e f.idx.toNat (some f) i = some g →
      (i = f.idx.toNat ∧ g = f) ∨ e i = some g := by
    intro i g hg
    by_cases hi : i = f.idx.toNat
    · subst hi
      rw [update_self, some.injEq] at hg
      exact .inl ⟨rfl, hg.symm⟩
    · rw [update_of_ne hi] at hg
      exact .inr hg
  refine ⟨⟨?_, ?_, ?_, ?_, ?_, ?_⟩, hctx'⟩
  · rw [chunksOf_update]
    exact hafter
  · intro i g hg
    rcases hcase i g hg with ⟨-, rfl⟩ | hold
    · exact mem_append_right _ (mem_singleton_self _)
    · exact mem_append_left _ (h.mem i g hold)
  · intro i g hg
    rcases hcase i g hg with ⟨-, rfl⟩ | hold
    · exact hkey
    · exact h.key_eq i g hold
  · intro i g hg
    rw [htotal]
    rcases hcase i g hg with ⟨-, rfl⟩ | hold
    · exact hfits.total
    · exact h.total_eq i g hold
  · intro i g hg
    rcases hcase i g hg with ⟨hi, rfl⟩ | hold
    · exact hi.symm
    · exact h.idx_eq i g hold
  · intro ctx hsome
    rw [hctx'] at hsome
    generalize hp : p.ctx = v at hsome ⊢
    cases v with
    | none =>
      have hin : incoming = some ctx := hsome
      exact ⟨f.idx.toNat, f, update_self .., by rw [hctx, hin]⟩
    | some old =>
      cases hsome
      obtain ⟨i, g, hg, hgctx⟩ := h.ctx_some ctx hp
      refine ⟨i, g, ?_, hgctx⟩
      have hi : i ≠ f.idx.toNat := by
        rintro rfl
        have hnone := hfits.fresh
        rw [chunksOf, hg] at hnone
        cases hnone
      rw [update_of_ne hi]
      exact hg

/-- A full table yields a genuine payload. -/
lemma Provenance.genuine (h : Provenance log key p e) (hgot : p.got = want p.total)
    (hlast : e f.idx.toNat = some f) {incoming : Option FragCtx}
    (hctx : contextOf f = some incoming) (hnone : p.ctx = none → incoming = none) :
    Genuine log (assembled key p f) := by
  have hall := h.gathers.counts.got_eq_want.mp hgot
  have hentry : ∀ i < p.total.toNat, ∃ g, e i = some g := by
    intro i hi
    obtain ⟨b, hb⟩ := isSome_iff_exists.mp (hall i hi)
    obtain ⟨g, hg, -⟩ := map_eq_some_iff.mp hb
    exact ⟨g, hg⟩
  have hget : ∀ i < p.total.toNat, e i = some ((e i).getD f) := by
    intro i hi
    obtain ⟨g, hg⟩ := hentry i hi
    rw [hg]
    rfl
  have hbuf := h.gathers.buf_eq hall
  have hpayload : p.buf = (List.range p.total.toNat).flatMap fun i => ((e i).getD f).chunk := by
    rw [hbuf, joined, flatMap_def, flatMap_def]
    congr 1
    refine map_congr_left fun i hi => ?_
    obtain ⟨g, hg⟩ := hentry i (mem_range.mp hi)
    rw [chunksOf, hg]
    rfl
  have hlt : f.idx.toNat < p.total.toNat := by
    refine h.gathers.counts.lt_total (b := f.chunk) ?_
    rw [chunksOf, hlast]
    rfl
  refine ⟨key, p.total.toNat, fun i => (e i).getD f, ?_, hpayload, ?_, ?_⟩
  · intro i hi
    have hg := hget i hi
    exact ⟨h.mem i _ hg, h.key_eq i _ hg, by rw [h.total_eq i _ hg], h.idx_eq i _ hg⟩
  · change p.buf.length ≤ fragMaxPayload
    rw [hbuf, ← h.gathers.counts.bytes]
    exact h.gathers.counts.le_payload
  cases hp : p.ctx with
  | some ctx =>
    obtain ⟨i, g, hg, hgctx⟩ := h.ctx_some ctx hp
    obtain ⟨hsess, haddr, hsrc⟩ := fields_of_contextOf hgctx
    have hi : i < p.total.toNat := by
      refine h.gathers.counts.lt_total (b := g.chunk) ?_
      rw [chunksOf, hg]
      rfl
    refine ⟨i, hi, ?_⟩
    simp [assembled, hp, hg, hsess, haddr, hsrc]
  | none =>
    rw [hnone hp] at hctx
    obtain ⟨hsess, haddr⟩ := fields_of_contextOf_none hctx
    refine ⟨f.idx.toNat, hlt, ?_⟩
    simp [assembled, hp, hlast, hsess, haddr]

end

namespace Reassembler

/-- Every partial has its provenance. -/
def Sourced (log : List Wire.FragView) (r : Reassembler) : Prop :=
  ∀ key p, r.parts.lookup key = some p → ∃ e, Provenance log key p e

variable {log : List Wire.FragView} {r r' : Reassembler} {key : FragKey} {p : Partial}
  {f : Wire.FragView} {incoming : Option FragCtx} {z : Sizes}

lemma Sourced.sub (h : Sourced log r) (hsub : SubTable r' r) : Sourced log r' :=
  fun key p hp => h key p (hsub key p hp)

lemma Sourced.mono {log' : List Wire.FragView} (h : Sourced log r)
    (hlog : ∀ f ∈ log, f ∈ log') : Sourced log' r := by
  intro key p hp
  obtain ⟨e, he⟩ := h key p hp
  exact ⟨e, he.mono hlog⟩

/-- One partial is replaced. -/
lemma Sourced.insert (h : Sourced log r) {e : Nat → Option Wire.FragView}
    (he : Provenance log key p e) (hparts : r'.parts = r.parts.insert key p) : Sourced log r' := by
  intro key' p' hp'
  rw [hparts] at hp'
  rcases Map.lookup_insert_cases hp' with ⟨rfl, rfl⟩ | ⟨-, hp'⟩
  · exact ⟨e, he⟩
  · exact h key' p' hp'

variable {d : Bytes}

lemma contextOf_of_identify (h : identify d f = some (key, incoming)) :
    contextOf f = some incoming := by
  unfold identify at h
  simp only [ite_none_left_eq_some, bind_eq_bind, bind_eq_some_iff, some.injEq, Prod.mk.injEq] at h
  obtain ⟨-, -, -, k, -, c, hc, -, -, rfl⟩ := h
  exact hc

lemma shape_of_identify (h : identify d f = some (key, incoming)) :
    1 ≤ f.total.toNat ∧ f.total.toNat ≤ fragMaxTotal ∧ f.idx.toNat < f.total.toNat ∧
      f.chunk.length ≤ fragMaxPayload := by
  unfold identify at h
  simp only [ite_none_left_eq_some] at h
  obtain ⟨hshape, hlen, -⟩ := h
  simp only [not_or, UInt8.le_iff_toNat_le, UInt8.lt_iff_toNat_lt, UInt8.toNat_one, Nat.not_lt,
    Nat.not_le] at hshape
  exact ⟨hshape.1, hshape.2.1, hshape.2.2.1, Nat.not_lt.mp hlen⟩

variable {nowMs : Nat}

/-- A fragment that fits its partial lands there with its provenance, and a payload that it
completes is genuine. -/
lemma land_taken (hsourced : Sourced log r) {e : Nat → Option Wire.FragView}
    (hprov : Provenance log key p e) (hfits : p.Fits (chunksOf e) f) (hend : pastEnd p f = false)
    (hkey : keyOf f = some key) (hctx : contextOf f = some incoming) (isNew : Bool) :
    Sourced (log ++ [f]) (r.land z key p isNew f incoming nowMs).2 ∧
      ∀ a, (r.land z key p isNew f incoming nowMs).1 = some a → Genuine (log ++ [f]) a := by
  obtain ⟨hafter, hqctx⟩ := hprov.absorb z hfits hend hkey hctx
  have hbound : ¬((named p incoming).place f).any
      (fun pos => decide (saturatingAdd pos f.chunk.length > fragMaxPayload)) = true := by
    have hplace : ((named p incoming).place f) = p.place f := rfl
    rw [hplace, Bool.not_eq_true]
    exact hend
  have hqueue : ∀ s : Reassembler, (if isNew then s.queueSlot z key nowMs else s).parts =
      s.parts := by
    intro s
    cases isNew <;> rfl
  unfold land
  simp only [if_neg hbound]
  generalize (named p incoming).absorb z f = q at hafter hqctx ⊢
  have hstored : Sourced (log ++ [f]) (pruneOrders z (if isNew then
        (r.update key (named p incoming) q).queueSlot z key nowMs
        else r.update key (named p incoming) q)) := by
    refine (hsourced.mono fun g hg => mem_append_left _ hg).insert hafter ?_
    rw [pruneOrders_parts, hqueue]
    rfl
  split
  · rename_i hwant
    refine ⟨hstored.sub (subTable_discard _ _ _), ?_⟩
    rintro a ⟨⟩
    have htotal : f.total = q.total := hafter.total_eq _ f (update_self ..)
    refine hafter.genuine (by rw [← htotal]; exact hwant) (update_self ..) hctx ?_
    intro hnone
    rw [hqctx] at hnone
    generalize p.ctx = v at hnone ⊢
    cases v with
    | none =>
      exact hnone
    | some ctx =>
      cases hnone
  · exact ⟨hstored, nofun⟩

/-- A fragment that is refused for its place leaves the partial as it was, up to a context that
is no other than its own. -/
lemma land_refused (hsourced : Sourced log r) (hget : r.parts.lookup key = some p)
    (hend : pastEnd p f = true) (hkeep : p.ctx = none → incoming = none) (isNew : Bool) :
    Sourced log (r.land z key p isNew f incoming nowMs).2 ∧
      (r.land z key p isNew f incoming nowMs).1 = none := by
  have hsame : (named p incoming) = p := by
    cases hp : p.ctx with
    | none =>
      rw [hkeep hp, ← hp]
      cases p
      cases hp
      rfl
    | some ctx =>
      cases p
      cases hp
      rfl
  have hbound : ((p.place f).any
      (fun pos => decide (saturatingAdd pos f.chunk.length > fragMaxPayload))) = true := hend
  unfold land
  simp only [hsame, hbound, if_true]
  split
  · exact ⟨hsourced.sub (subTable_erase r key _ _ _), rfl⟩
  · obtain ⟨e, he⟩ := hsourced key p hget
    exact ⟨hsourced.insert he rfl, rfl⟩

lemma fits_new (h : identify d f = some (key, incoming)) (hmany : f.total ≠ 1) :
    Provenance log key (Partial.new f.total none nowMs) (fun _ => none) ∧
      (Partial.new f.total none nowMs).Fits (chunksOf fun _ => none) f := by
  obtain ⟨hpos, hmax, hidx, hlen⟩ := shape_of_identify h
  have htwo : 2 ≤ f.total.toNat := by
    have hne : f.total.toNat ≠ 1 := by
      intro heq
      exact hmany (UInt8.toNat_inj.mp heq)
    omega
  refine ⟨⟨?_, nofun, nofun, nofun, nofun, nofun⟩, rfl, hidx, rfl, nofun, ?_⟩
  · exact Partial.gathers_new none nowMs htwo hmax
  · change 0 + f.chunk.length ≤ fragMaxPayload
    omega

variable (hsourced : Sourced log r)
include hsourced

/-- A new partial is opened by a fragment of its own place only. -/
lemma land_opened (hid : identify d f = some (key, incoming)) (hmany : f.total ≠ 1)
    (hend : pastEnd (Partial.new f.total incoming nowMs) f = false) :
    Sourced (log ++ [f])
        (r.land z key (Partial.new f.total incoming nowMs) true f incoming nowMs).2 ∧
      ∀ a, (r.land z key (Partial.new f.total incoming nowMs) true f incoming nowMs).1 = some a →
        Genuine (log ++ [f]) a := by
  have hnew : (Provenance log key (Partial.new f.total none nowMs) fun _ => none) ∧
      (Partial.new f.total none nowMs).Fits (chunksOf fun _ => none) f := fits_new hid hmany
  have hsame : r.land z key (Partial.new f.total incoming nowMs) true f incoming nowMs =
      r.land z key (Partial.new f.total none nowMs) true f incoming nowMs := by
    have hctx : ((Partial.new f.total incoming nowMs).ctx <|> incoming) =
        ((Partial.new f.total none nowMs).ctx <|> incoming) := by
      cases incoming <;> rfl
    unfold land
    rw [hctx]
    rfl
  rw [hsame]
  exact land_taken hsourced hnew.1 hnew.2 hend (keyOf_of_identify hid)
    (contextOf_of_identify hid) true

/-- A partial that does not take its first fragment in is given up. -/
lemma land_never (hend : pastEnd (Partial.new f.total incoming nowMs) f = true) :
    Sourced log (r.land z key (Partial.new f.total incoming nowMs) true f incoming nowMs).2 ∧
      (r.land z key (Partial.new f.total incoming nowMs) true f incoming nowMs).1 = none := by
  have hbound : (({ Partial.new f.total incoming nowMs with
      ctx := (Partial.new f.total incoming nowMs).ctx <|> incoming } : Partial).place f).any
      (fun pos => decide (saturatingAdd pos f.chunk.length > fragMaxPayload)) = true := hend
  have hgot : (Partial.new f.total incoming nowMs).got = 0 := rfl
  unfold land
  simp only [hbound, if_true]
  rw [if_pos hgot]
  exact ⟨hsourced.sub (subTable_erase r key _ _ _), rfl⟩

/-- What one push does: the partials keep their provenance with the fragment counted in when a
partial took it, and a payload of several fragments is genuine. -/
lemma pushFrame_sourced (hkeep : r.leavesContext z d f = false) :
    Sourced (log ++ r.taken z d f nowMs) (r.pushFrame z d f nowMs).2 ∧
      ∀ a, (r.pushFrame z d f nowMs).1 = some a → f.total ≠ 1 →
        Genuine (log ++ r.taken z d f nowMs) a := by
  unfold leavesContext at hkeep
  cases hid : identify d f with
  | none =>
    simp only [pushFrame, taken, hid, append_nil]
    exact ⟨hsourced, by rintro _ ⟨⟩⟩
  | some found =>
    obtain ⟨key, incoming⟩ := found
    rw [hid] at hkeep
    by_cases hone : f.total = 1
    · simp only [pushFrame, taken, hid, hone, if_true, append_nil]
      exact ⟨hsourced, fun a _ hmany => absurd rfl hmany⟩
    have hkey := keyOf_of_identify hid
    have hctx := contextOf_of_identify hid
    obtain ⟨-, -, hidx, -⟩ := shape_of_identify hid
    cases hget : r.parts.lookup key with
    | some p =>
      obtain ⟨e, he⟩ := hsourced key p hget
      by_cases hok : (p.accepts f incoming &&
          decide (saturatingAdd r.heldBytes (p.charge z f) ≤ fragMaxHeldBytes)) = true
      · have hfits :=
          (he.gathers.counts.accepts_iff incoming hidx).mp (Bool.and_eq_true_iff.mp hok).1
        cases hend : pastEnd p f with
        | false =>
          simp only [pushFrame, taken, hid, if_neg hone, hget, if_pos hok, hend,
            Bool.false_eq_true, if_false]
          obtain ⟨hland, hgenuine⟩ := land_taken hsourced he hfits.1 hend hkey hctx false
          exact ⟨hland, fun a ha _ => hgenuine a ha⟩
        | true =>
          simp only [pushFrame, taken, hid, if_neg hone, hget, if_pos hok, hend, if_true,
            append_nil]
          have hkeep' : p.ctx = none → incoming = none := by
            intro hnone
            cases incoming with
            | none => rfl
            | some ctx => simp [hget, hnone, hok, hend] at hkeep
          obtain ⟨hland, hnone⟩ := land_refused hsourced hget hend hkeep' false
          exact ⟨hland, fun a ha => by rw [hnone] at ha; cases ha⟩
      · simp only [pushFrame, taken, hid, if_neg hone, hget, if_neg hok, append_nil]
        exact ⟨hsourced, by rintro _ ⟨⟩⟩
    | none =>
      have hsub := (swept_makeRoom z r (estimate z f)).subTable
      obtain ⟨⟨r₁, room⟩, hroom⟩ : ∃ found, r.makeRoom z (estimate z f) = found := ⟨_, rfl⟩
      rw [hroom] at hsub
      have hsourced₁ : Sourced log r₁ := hsourced.sub hsub
      cases room with
      | false =>
        simp only [pushFrame, taken, hid, if_neg hone, hget, hroom, Bool.false_eq_true,
          if_false, append_nil]
        exact ⟨hsourced₁, by rintro _ ⟨⟩⟩
      | true =>
        cases hend : pastEnd (Partial.new f.total incoming nowMs) f with
        | false =>
          simp only [pushFrame, taken, hid, if_neg hone, hget, hroom, if_true, hend,
            Bool.false_eq_true, if_false]
          obtain ⟨hland, hgenuine⟩ := land_opened hsourced₁ hid hone hend
          exact ⟨hland, fun a ha _ => hgenuine a ha⟩
        | true =>
          simp only [pushFrame, taken, hid, if_neg hone, hget, hroom, if_true, hend, append_nil]
          obtain ⟨hland, hnone⟩ := land_never hsourced₁ hend
          exact ⟨hland, fun a ha => by rw [hnone] at ha; cases ha⟩

end Reassembler

/-- What happens to a reassembler. -/
inductive ReasmEvent where
  /-- A fragment, with the buffer it was decoded from. -/
  | push (d : Bytes) (f : Wire.FragView) (nowMs : Nat)
  | expire (nowMs : Nat)
  | dropSession (session : UInt32)
  | dropFlow (wireId : UInt32)

/-- A reassembler with the fragments its partials have taken in so far. -/
structure TracedReasm where
  reasm : Reassembler
  log : List Wire.FragView

namespace TracedReasm

def new : TracedReasm := ⟨.new, []⟩

section

variable (z : Sizes) (t : TracedReasm)

def next : ReasmEvent → TracedReasm
  | .push d f nowMs =>
    ⟨(t.reasm.pushFrame z d f nowMs).2, t.log ++ t.reasm.taken z d f nowMs⟩
  | .expire nowMs => { t with reasm := t.reasm.expire z nowMs }
  | .dropSession session => { t with reasm := t.reasm.dropSession session }
  | .dropFlow wireId => { t with reasm := t.reasm.dropFlow wireId }

/-- The payload of several fragments that an event yields. -/
def delivered : ReasmEvent → Option Assembled
  | .push d f nowMs => if f.total = 1 then none else (t.reasm.pushFrame z d f nowMs).1
  | _ => none

/-- No fragment that is refused for its place leaves its context behind. -/
def KeepsContext : ReasmEvent → Prop
  | .push d f _ => t.reasm.leavesContext z d f = false
  | _ => True

end

instance (z : Sizes) (t : TracedReasm) (ev : ReasmEvent) : Decidable (t.KeepsContext z ev) := by
  unfold KeepsContext
  split <;> infer_instance

variable {z : Sizes} {t : TracedReasm}

lemma step_genuine (h : t.reasm.Sourced t.log) (ev : ReasmEvent) (hkeep : t.KeepsContext z ev) :
    (∀ a, t.delivered z ev = some a → Genuine (t.next z ev).log a) ∧
      (t.next z ev).reasm.Sourced (t.next z ev).log := by
  cases ev with
  | push d f nowMs =>
    obtain ⟨hsourced, hgenuine⟩ := pushFrame_sourced h hkeep
    refine ⟨fun a ha => ?_, hsourced⟩
    unfold delivered at ha
    dsimp only at ha
    split at ha
    · cases ha
    · rename_i hmany
      exact hgenuine a ha hmany
  | expire nowMs => exact ⟨nofun, h.sub (subTable_expire z t.reasm nowMs)⟩
  | dropSession session =>
    exact ⟨nofun, h.sub (subTable_dropSession t.reasm session)⟩
  | dropFlow wireId => exact ⟨nofun, h.sub (subTable_dropFlow t.reasm wireId)⟩

/-- In every run of fragments, sweeps, drops and evictions in which no refused fragment leaves its
context behind, every payload of several fragments is genuine. -/
theorem reassembled_genuine (z : Sizes) (es : List ReasmEvent)
    (hkeep : Along (next z) (KeepsContext z) new es) :
    Along (next z) (fun t ev => ∀ a, t.delivered z ev = some a → Genuine (t.next z ev).log a)
      new es := by
  have hnew : new.reasm.Sourced new.log := nofun
  have hstep : ∀ (t : TracedReasm) (ev : ReasmEvent), t.reasm.Sourced t.log → t.KeepsContext z ev →
      (∀ a, t.delivered z ev = some a → Genuine (t.next z ev).log a) ∧
        (t.next z ev).reasm.Sourced (t.next z ev).log :=
    fun _ ev h hk => step_genuine h ev hk
  exact Along.of_invariant hstep hnew hkeep

/-- A fragment of a flow's payload of four, as the buffer that holds its chunk alone. -/
def quarter (named : Bool) (idx : UInt8) (chunk : Bytes) : ReasmEvent :=
  .push chunk
    ⟨some 2, if named then some 9 else none,
      if named then some (.ip (.v4 (.new 8 8 8 8) 53)) else none, false, 5, idx, 4, 0, chunk⟩ 0

/-- The three leading fragments, without a context, and a last one that reaches past the largest
payload and names a session. -/
def overreaching : List ReasmEvent :=
  [quarter false 0 [1], quarter false 1 [2], quarter true 3 (List.replicate 8190 0),
    quarter false 2 [3]]

theorem reassembled_genuine_quarters :
    let z : Sizes := ⟨168, 40, 24⟩
    let es := [quarter false 2 [3], quarter true 3 [4], .expire 1, quarter false 1 [2],
      quarter false 0 [1]]
    Along (next z) (KeepsContext z) new es ∧
      Along (next z) (fun t ev => ∀ a, t.delivered z ev = some a → Genuine (t.next z ev).log a)
        new es :=
  ⟨by decide +kernel, reassembled_genuine ⟨168, 40, 24⟩ _ (by decide +kernel)⟩

/-- The payload of four fragments that carry no context is delivered with the context of the fifth,
which was refused. -/
theorem refused_fragment_names_payload :
    let z : Sizes := ⟨168, 40, 24⟩
    ¬ Along (next z) (fun t ev => ∀ a, t.delivered z ev = some a → Genuine (t.next z ev).log a)
      new (overreaching ++ [quarter false 3 [4]]) := by
  intro z halong
  have hlog : ∀ f ∈ (after (next z) new (overreaching ++ [quarter false 3 [4]])).log,
      f.sess = none := by
    decide +kernel
  have hgot : ((after (next z) new overreaching).delivered z (quarter false 3 [4])).map
      (fun a => (a.sess, a.payload)) = some (some 9, [1, 2, 3, 4]) := by
    decide +kernel
  obtain ⟨a, ha, hsess⟩ := map_eq_some_iff.mp hgot
  obtain ⟨-, -, -, -, hgenuine, -⟩ := halong
  obtain ⟨key, total, e, hall, -, -, i, hi, hctx, -, -⟩ := hgenuine a ha
  have hnone := hlog (e i) (hall i hi).1
  rw [← hctx] at hnone
  rw [hnone] at hsess
  cases hsess

end TracedReasm

end MyQuic2
