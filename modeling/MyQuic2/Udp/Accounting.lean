import MyQuic2.Udp.Footprint

/-!
# The reassembler's accounts

Whatever arrives, the held octets are the charges of the live partials and of the
age queue, every live partial is queued, and partials and queue stay within their
bounds.
-/

namespace MyQuic2

open Map Partial

/-- A live partial is charged for what it takes up. -/
structure Partial.Kept (z : Sizes) (p : Partial) : Prop where
  stocked : p.Stocked z
  charged : p.retained = p.footprint z
  got : p.got ≠ 0

namespace Reassembler

/-- The accounts of a reassembler, with a queue of any length. -/
structure Books (z : Sizes) (r : Reassembler) : Prop where
  held : r.held = r.parts.total retained
  orderBytes : r.orderBytes = r.order.length * z.slot
  few : r.parts.size ≤ fragMaxPartials
  /-- Every live partial has a slot with the time it was opened at. -/
  slotted : ∀ key p, r.parts.lookup key = some p → (key, p.firstMs) ∈ r.order
  slot : r.order ≠ [] → z.slot ≤ fragMaxHeldBytes
  kept : ∀ key p, r.parts.lookup key = some p → p.Kept z

/-- The accounts of a reassembler. -/
structure Ledger (z : Sizes) (r : Reassembler) : Prop extends Books z r where
  short : r.order.length ≤ 2 * fragMaxPartials + orderSlotLimit

lemma ledger_new (z : Sizes) : Ledger z new := by
  refine ⟨?_, by simp [new]⟩
  constructor <;> simp [new, Map.total, Map.size]

section

variable {z : Sizes} {r : Reassembler} {key : FragKey} {p : Partial}

lemma Books.heldBytes_eq (h : Books z r) :
    r.heldBytes = r.parts.total retained + r.order.length * z.slot := by
  rw [heldBytes, h.held, h.orderBytes]

lemma Ledger.discard (h : Ledger z r) (hget : r.parts.lookup key = some p) :
    Ledger z (r.discard key p) := by
  have hsub := subTable_discard r key p
  refine ⟨⟨?_, h.orderBytes, le_trans (size_erase_le _ _) h.few,
    fun key' p' hp' => h.slotted key' p' (hsub key' p' hp'), h.slot,
    fun key' p' hp' => h.kept key' p' (hsub key' p' hp')⟩, h.short⟩
  have htotal := total_erase hget retained
  change r.held - p.retained = total (r.parts.erase key) retained
  rw [h.held]
  omega

variable {rest : List (FragKey × Nat)} {q : Partial}

/-- The oldest slot may go when no live partial is left with it. -/
lemma Ledger.popSlot (h : Ledger z r) {slot : FragKey × Nat} (horder : r.order = slot :: rest)
    (hfree : ∀ key p, r.parts.lookup key = some p → (key, p.firstMs) ≠ slot) :
    Ledger z (r.popSlot z) := by
  have htail : (r.popSlot z).order = rest := by
    change r.order.tail = rest
    rw [horder, List.tail_cons]
  have hlen : r.order.length = rest.length + 1 := by rw [horder, List.length_cons]
  refine ⟨⟨h.held, ?_, h.few, fun key p hp => ?_, fun _ => h.slot (by simp [horder]), h.kept⟩, ?_⟩
  · rw [htail]
    change r.orderBytes - z.slot = rest.length * z.slot
    rw [h.orderBytes, hlen, Nat.add_mul, Nat.one_mul, Nat.add_sub_cancel]
  · rw [htail]
    have hmem := h.slotted key p hp
    rw [horder] at hmem
    exact (List.mem_cons.mp hmem).resolve_left (hfree key p hp)
  · rw [htail]
    have hshort := h.short
    omega

/-- The partial of the oldest slot goes with it. -/
lemma Ledger.popLive (h : Ledger z r) (horder : r.order = (key, p.firstMs) :: rest)
    (hget : r.parts.lookup key = some p) : Ledger z ((r.popSlot z).discard key p) := by
  have hgone : Ledger z ((r.discard key p).popSlot z) := by
    refine (h.discard hget).popSlot horder fun key' p' hp' heq => ?_
    obtain rfl : key' = key := congrArg Prod.fst heq
    change (r.parts.erase key').lookup key' = some p' at hp'
    rw [AList.lookup_erase] at hp'
    cases hp'
  exact hgone

lemma Ledger.popStale (h : Ledger z r) {firstMs : Nat} (horder : r.order = (key, firstMs) :: rest)
    (hstale : ∀ p, r.parts.lookup key = some p → p.firstMs ≠ firstMs) : Ledger z (r.popSlot z) := by
  refine h.popSlot horder fun key' p' hp' heq => ?_
  obtain ⟨rfl, hms⟩ := Prod.mk.inj heq
  exact hstale p' hp' hms

/-- Partials and slots were let go, and the accounts are right. -/
structure Shrinks (z : Sizes) (r r' : Reassembler) : Prop where
  ledger : Ledger z r'
  sub : SubTable r' r
  heldBytes_le : r'.heldBytes ≤ r.heldBytes

lemma Ledger.shrinks_refl (h : Ledger z r) : Shrinks z r r := ⟨h, .refl r, le_refl _⟩

lemma Shrinks.trans {r₁ r₂ r₃ : Reassembler} (h : Shrinks z r₁ r₂) (h' : Shrinks z r₂ r₃) :
    Shrinks z r₁ r₃ :=
  ⟨h'.ledger, h'.sub.trans h.sub, le_trans h'.heldBytes_le h.heldBytes_le⟩

lemma Ledger.shrinks_discard (h : Ledger z r) (hget : r.parts.lookup key = some p) :
    Shrinks z r (r.discard key p) :=
  ⟨h.discard hget, subTable_discard r key p, Nat.add_le_add_right (Nat.sub_le _ _) _⟩

/-- A sweep keeps the accounts right. -/
lemma Ledger.shrinks_swept {r' : Reassembler} (h : Ledger z r) (hswept : Swept z r r') :
    Shrinks z r r' := by
  induction hswept with
  | refl => exact h.shrinks_refl
  | stale _ horder hstale ih =>
    exact ih.trans ⟨ih.ledger.popStale horder hstale, fun _ _ hp => hp,
      Nat.add_le_add_left (Nat.sub_le _ _) _⟩
  | live _ horder hget ih =>
    exact ih.trans ⟨ih.ledger.popLive horder hget, subTable_discard _ _ _,
      Nat.add_le_add (Nat.sub_le _ _) (Nat.sub_le _ _)⟩
  | alone _ hget ih => exact ih.trans (ih.ledger.shrinks_discard hget)

lemma order_popSlot {slot : FragKey × Nat} (horder : r.order = slot :: rest) :
    (r.popSlot z).order = rest := by
  change r.order.tail = rest
  rw [horder, List.tail_cons]

/-- Evictions make room or let go of everything. -/
lemma hasRoom_makeRoom (est : Nat) (h : (r.makeRoom z est).2 = true) :
    (r.makeRoom z est).1.hasRoom est = true := by
  unfold makeRoom at h ⊢
  generalize r.parts.size + 1 = left at h ⊢
  induction left generalizing r with
  | zero => cases h
  | succ left ih =>
    unfold makeRoomLoop at h ⊢
    split at h
    · rename_i hroom
      rw [if_pos hroom]
      exact hroom
    rename_i hroom
    rw [if_neg hroom]
    split at h
    · exact ih h
    · cases h

section

variable (h : Ledger z r)
include h

lemma Ledger.shrinks_retain (isOf : FragKey → Partial → Bool) :
    Shrinks z r { r with
      parts := r.parts.retain fun key p => !isOf key p
      held := r.held -
        ((r.parts.entries.filter fun e => isOf e.1 e.2).map fun e => e.2.retained).sum } := by
  have hsub := subTable_retain r (fun key p => !isOf key p) (r.held -
    ((r.parts.entries.filter fun e => isOf e.1 e.2).map fun e => e.2.retained).sum)
  have htotal := total_retain r.parts isOf retained
  refine ⟨⟨⟨?_, h.orderBytes, le_trans (size_retain_le _ _) h.few,
    fun key' p' hp' => h.slotted key' p' (hsub key' p' hp'), h.slot,
    fun key' p' hp' => h.kept key' p' (hsub key' p' hp')⟩, h.short⟩, hsub,
    Nat.add_le_add_right (Nat.sub_le _ _) _⟩
  simp only [h.held]
  omega

lemma Ledger.shrinks_dropSession (session : UInt32) :
    Shrinks z r (r.dropSession session) := h.shrinks_retain _

lemma Ledger.shrinks_dropFlow (wireId : UInt32) : Shrinks z r (r.dropFlow wireId) := by
  unfold dropFlow
  split
  · exact h.shrinks_refl
  · exact h.shrinks_retain fun key _ => !key.inline && key.id = wireId

end

def liveSlots (r : Reassembler) : List (FragKey × Nat) :=
  r.parts.entries.map fun e => (e.1, e.2.firstMs)

lemma length_liveSlots : r.liveSlots.length = r.parts.size :=
  List.length_map _

/-- The same, oldest first. -/
def sortedSlots (r : Reassembler) : List (FragKey × Nat) :=
  r.liveSlots.insertionSort fun a b => slotLe a b

lemma sortedSlots_perm (r : Reassembler) : r.sortedSlots.Perm r.liveSlots :=
  List.perm_insertionSort _ _

/-- The queue is left alone, or rebuilt from the live partials. -/
lemma pruneOrders_cases (z : Sizes) (r : Reassembler) :
    (r.order.length ≤ saturatingAdd (saturatingMul r.parts.size 2) orderSlotLimit ∧
        r.pruneOrders z = r) ∨
      (saturatingAdd (saturatingMul r.parts.size 2) orderSlotLimit < r.order.length ∧
        r.pruneOrders z =
          { r with
            order := r.sortedSlots
            orderBytes := saturatingMul r.sortedSlots.length z.slot }) := by
  unfold pruneOrders
  split
  · rename_i hshort
    exact .inl ⟨hshort, rfl⟩
  · rename_i hlong
    exact .inr ⟨Nat.not_le.mp hlong, rfl⟩

lemma pruneLimit_eq (h : r.parts.size ≤ fragMaxPartials) :
    saturatingAdd (saturatingMul r.parts.size 2) orderSlotLimit =
      2 * r.parts.size + orderSlotLimit := by
  have hmax : fragMaxPartials = 256 := rfl
  have hlimit : orderSlotLimit = 64 := rfl
  have husize : 1000 < usizeSize := by decide
  rw [saturatingMul_of_lt (by omega), saturatingAdd_of_lt (by omega), Nat.mul_comm]

/-- Rebuilding the queue brings it back within its bound and adds no charge. -/
lemma Books.prune (h : Books z r) :
    Ledger z (r.pruneOrders z) ∧ (r.pruneOrders z).heldBytes ≤ r.heldBytes ∧
      (r.pruneOrders z).order.length ≤ 2 * (r.pruneOrders z).parts.size + orderSlotLimit := by
  have hlimit := pruneLimit_eq h.few
  have hfew := h.few
  have hmax : fragMaxPartials = 256 := rfl
  rcases r.pruneOrders_cases z with ⟨hshort, hsame⟩ | ⟨hlong, hnew⟩
  · rw [hsame]
    exact ⟨⟨h, by omega⟩, le_refl _, by omega⟩
  have hlen : r.sortedSlots.length = r.parts.size :=
    r.sortedSlots_perm.length_eq.trans r.length_liveSlots
  have hslot : z.slot ≤ fragMaxHeldBytes := by
    refine h.slot fun hnil => ?_
    rw [hnil, List.length_nil] at hlong
    omega
  have hsat : saturatingMul r.sortedSlots.length z.slot = r.sortedSlots.length * z.slot := by
    have hle : r.sortedSlots.length * z.slot ≤ 256 * 262144 := Nat.mul_le_mul (by omega) hslot
    have husize : 256 * 262144 < usizeSize := by decide
    exact saturatingMul_of_lt (by omega)
  rw [hnew]
  refine ⟨⟨⟨h.held, hsat, h.few, fun key p hp => r.sortedSlots_perm.mem_iff.mpr
    (List.mem_map.mpr ⟨⟨key, p⟩, AList.mem_lookup_iff.mp hp, rfl⟩), fun _ => hslot, h.kept⟩, ?_⟩,
    ?_, ?_⟩
  · change r.sortedSlots.length ≤ _
    omega
  · change r.held + saturatingMul r.sortedSlots.length z.slot ≤ r.held + r.orderBytes
    rw [hsat, h.orderBytes]
    exact Nat.add_le_add_left (Nat.mul_le_mul_right _ (by omega)) _
  · change r.sortedSlots.length ≤ 2 * r.parts.size + orderSlotLimit
    omega

lemma Ledger.shrinks_expire (h : Ledger z r) (nowMs : Nat) : Shrinks z r (r.expire z nowMs) := by
  have hsweep := h.shrinks_swept (swept_expireFrom z nowMs r)
  obtain ⟨hledger, hle, -⟩ := hsweep.ledger.toBooks.prune
  refine hsweep.trans ⟨hledger, ?_, hle⟩
  intro key p hp
  change ((expireFrom z nowMs r.order r).pruneOrders z).parts.lookup key = some p at hp
  rwa [pruneOrders_parts] at hp

lemma retained_le_of_kept (h : p.Kept z) : p.retained ≤ 2 ^ 20 := by
  rw [h.charged]
  exact h.stocked.footprint_le

section

variable (hkept : ∀ key p, r.parts.lookup key = some p → p.Kept z) (hq : q.Kept z)
include hkept hq

lemma kept_insert {key' : FragKey} {p' : Partial}
    (hp' : (r.parts.insert key q).lookup key' = some p') : p'.Kept z := by
  rcases lookup_insert_cases hp' with ⟨-, rfl⟩ | ⟨-, hold⟩
  · exact hq
  · exact hkept key' p' hold

/-- The charges of all partials fit a machine word, so that no sum stops early. -/
lemma held_update {old : Partial} (hfew : size (r.parts.insert key q) ≤ fragMaxPartials)
    (hheld : r.held - old.retained = total (r.parts.erase key) retained) :
    (r.update key old q).held = total (r.parts.insert key q) retained := by
  have hle : total (r.parts.insert key q) retained ≤ fragMaxPartials * 2 ^ 20 := by
    refine le_trans (total_le fun key' p' hp' => ?_) (Nat.mul_le_mul_right _ hfew)
    exact retained_le_of_kept (kept_insert hkept hq hp')
  have husize : fragMaxPartials * 2 ^ 20 < usizeSize := by decide
  rw [total_insert] at hle ⊢
  change saturatingAdd (r.held - old.retained) q.retained = _
  rw [hheld, saturatingAdd_of_lt (by omega), Nat.add_comm]

end

/-- Replacing a partial replaces its charge. -/
lemma Books.update (h : Books z r) (hget : r.parts.lookup key = some p) (old : Partial)
    (hold : old.retained = p.retained) (hq : q.Kept z) (hms : q.firstMs = p.firstMs) :
    Books z (r.update key old q) ∧
      (r.update key old q).heldBytes + p.retained = r.heldBytes + q.retained := by
  have htotal := total_erase hget retained
  have hfew : size (r.parts.insert key q) ≤ fragMaxPartials := by
    rw [size_insert_of_lookup hget]
    exact h.few
  have hheld : (r.update key old q).held = total (r.parts.insert key q) retained := by
    refine held_update h.kept hq hfew ?_
    rw [h.held, hold]
    omega
  refine ⟨⟨hheld, h.orderBytes, hfew, fun key' p' hp' => ?_, h.slot,
    fun key' p' hp' => kept_insert h.kept hq hp'⟩, ?_⟩
  · rcases lookup_insert_cases hp' with ⟨rfl, rfl⟩ | ⟨-, hother⟩
    · rw [hms]
      exact h.slotted key' p hget
    · exact h.slotted key' p' hother
  · rw [heldBytes, hheld, total_insert, heldBytes, h.held]
    change _ + r.orderBytes + _ = _
    omega

lemma Ledger.openPartial (h : Ledger z r) (hget : r.parts.lookup key = none) (old : Partial)
    (hold : old.retained = 0) (hq : q.Kept z) (hroom : r.parts.size < fragMaxPartials)
    (hslot : z.slot ≤ fragMaxHeldBytes) {nowMs : Nat} (hms : q.firstMs = nowMs) :
    Books z ((r.update key old q).queueSlot z key nowMs) ∧
      ((r.update key old q).queueSlot z key nowMs).heldBytes =
        r.heldBytes + (q.retained + z.slot) := by
  have herase := erase_of_lookup_eq_none hget
  have hfew : size (r.parts.insert key q) ≤ fragMaxPartials := by
    rw [size_insert_of_lookup_eq_none hget]
    omega
  have hheld : (r.update key old q).held = total (r.parts.insert key q) retained := by
    refine held_update h.kept hq hfew ?_
    rw [h.held, hold, herase, Nat.sub_zero]
  have horder : saturatingAdd r.orderBytes z.slot = (r.order.length + 1) * z.slot := by
    have hle : (r.order.length + 1) * z.slot ≤ 577 * 262144 := by
      have hshort : r.order.length ≤ 576 := h.short
      exact Nat.mul_le_mul (by omega) hslot
    have husize : 577 * 262144 < usizeSize := by decide
    rw [h.orderBytes, Nat.add_mul, Nat.one_mul] at *
    exact saturatingAdd_of_lt (by omega)
  refine ⟨⟨hheld, ?_, hfew, fun key' p' hp' => ?_, fun _ => hslot,
    fun key' p' hp' => kept_insert h.kept hq hp'⟩, ?_⟩
  · change saturatingAdd r.orderBytes z.slot = (r.order ++ [(key, nowMs)]).length * z.slot
    rw [horder, List.length_append, List.length_singleton]
  · change (key', p'.firstMs) ∈ r.order ++ [(key, nowMs)]
    rcases lookup_insert_cases hp' with ⟨rfl, rfl⟩ | ⟨-, hother⟩
    · rw [hms]
      simp
    · exact List.mem_append_left _ (h.slotted key' p' hother)
  · change (r.update key old q).held + saturatingAdd r.orderBytes z.slot =
      r.held + r.orderBytes + (q.retained + z.slot)
    rw [hheld, horder, total_insert, herase, h.held, h.orderBytes, Nat.add_mul, Nat.one_mul]
    omega

variable {f : Wire.FragView} {incoming : Option FragCtx} {d : Bytes} {nowMs : Nat}

/-- The last part of a push: the queue is brought within its bound, and a partial that is complete
goes. -/
def conclude (z : Sizes) (r : Reassembler) (key : FragKey) (q : Partial) (f : Wire.FragView) :
    Option Assembled × Reassembler :=
  if q.got = want f.total then (some (assembled key q f), (r.pruneOrders z).discard key q)
  else (none, r.pruneOrders z)

lemma land_joined (hend : pastEnd p f = false) :
    r.land z key p false f incoming nowMs =
      (r.update key (named p incoming) ((named p incoming).absorb z f)).conclude z key
        ((named p incoming).absorb z f) f := by
  have hbound : ((named p incoming).place f).any _ = false := hend
  simp only [land, hbound, Bool.false_eq_true, if_false]
  rfl

lemma land_new (hend : pastEnd p f = false) :
    r.land z key p true f incoming nowMs =
      ((r.update key (named p incoming) ((named p incoming).absorb z f)).queueSlot z key
        nowMs).conclude z key ((named p incoming).absorb z f) f := by
  have hbound : ((named p incoming).place f).any _ = false := hend
  simp only [land, hbound, Bool.false_eq_true, if_false]
  rfl

lemma land_pastEnd (hend : pastEnd p f = true) (hgot : p.got ≠ 0) (isNew : Bool) :
    r.land z key p isNew f incoming nowMs =
      (none, { r with parts := r.parts.insert key (named p incoming) }) := by
  have hbound : ((named p incoming).place f).any _ = true := hend
  simp only [land, hbound, if_true]
  rw [if_neg hgot]

/-- A partial that is opened takes its fragment in. -/
lemma pastEnd_new (hid : identify d f = some (key, incoming)) (nowMs : Nat) :
    pastEnd (Partial.new f.total incoming nowMs) f = false := by
  obtain ⟨-, -, -, hlen⟩ := shape_of_identify hid
  by_cases h0 : f.idx = 0
  · have hplace : (Partial.new f.total incoming nowMs).place f = some 0 := by
      rw [Partial.place, h0, Partial.posOf, if_pos rfl]
    rw [pastEnd, hplace, Option.any_some, decide_eq_false_iff_not, Nat.not_lt,
      saturatingAdd_le_iff (by decide)]
    omega
  · have hplace : (Partial.new f.total incoming nowMs).place f = none := by
      rw [place, firstAfter_of_ne h0]
      exact posOf_none_first h0
    rw [pastEnd, hplace]
    rfl

lemma Books.conclude (h : Books z r) (hget : r.parts.lookup key = some q) :
    Ledger z (r.conclude z key q f).2 ∧ (r.conclude z key q f).2.heldBytes ≤ r.heldBytes := by
  obtain ⟨hledger, hle, -⟩ := h.prune
  unfold Reassembler.conclude
  split
  · have hlive : (r.pruneOrders z).parts.lookup key = some q := by rwa [pruneOrders_parts]
    have hshrinks := hledger.shrinks_discard hlive
    exact ⟨hshrinks.ledger, le_trans hshrinks.heldBytes_le hle⟩
  · exact ⟨hledger, hle⟩

/-- A push that took its fragment in ends with right accounts, within a budget if there is one. -/
structure Lands (z : Sizes) (f : Wire.FragView) (inBudget : Prop)
    (out : Option Assembled × Reassembler) : Prop where
  ledger : Ledger z out.2
  heldBytes_le : inBudget → out.2.heldBytes ≤ fragMaxHeldBytes
  queue : out.1 = none → out.2.order.length ≤ 2 * out.2.parts.size + orderSlotLimit

lemma Books.lands (h : Books z r) (hget : r.parts.lookup key = some q) {inBudget : Prop}
    (hheld : inBudget → r.heldBytes ≤ fragMaxHeldBytes) :
    Lands z f inBudget (r.conclude z key q f) := by
  obtain ⟨hledger, hle⟩ := h.conclude (f := f) hget
  refine ⟨hledger, fun hin => le_trans hle (hheld hin), fun hnone => ?_⟩
  unfold Reassembler.conclude at hnone ⊢
  split at hnone
  · cases hnone
  rename_i hmore
  rw [if_neg hmore]
  exact h.prune.2.2

lemma chunk_ne_of_identify (hid : identify d f = some (key, incoming)) : f.chunk ≠ [] := by
  unfold identify at hid
  simp only [Option.ite_none_left_eq_some, not_or] at hid
  exact hid.1.2.2.2

/-- An admitted fragment leaves its partial with the right charge. -/
lemma kept_absorb (h : p.Stocked z) (hid : identify d f = some (key, incoming))
    (hbytes : p.bytes + f.chunk.length ≤ fragMaxPayload) (hend : pastEnd p f = false)
    {held : Nat} (hcharge : saturatingAdd held (p.charge z f) ≤ fragMaxHeldBytes) :
    (p.absorb z f).Kept z ∧ (p.absorb z f).firstMs = p.firstMs := by
  obtain ⟨hpos, hmax, hidx, hlen⟩ := shape_of_identify hid
  have hsame := h.same_absorb hlen hend
  refine ⟨⟨?_, p.retained_absorb z f, ?_⟩, hsame.firstMs⟩
  · exact h.absorb hpos (chunk_ne_of_identify hid) hbytes hend fun hplace =>
      (slots_le_of_charge hcharge hplace h.slots _).1
  · have h64 : f.idx.toNat < 64 := lt_of_lt_of_le hidx hmax
    intro hzero
    have hbit : (p.got ||| BitVec.twoPow 64 f.idx.toNat).getLsbD f.idx.toNat = true := by
      simp [h64]
    rw [show p.got ||| BitVec.twoPow 64 f.idx.toNat = 0 from hsame.got.symm.trans hzero] at hbit
    simp at hbit

lemma bytes_le_of_accepts (haccepts : p.accepts f incoming = true) :
    p.bytes + f.chunk.length ≤ fragMaxPayload := by
  simp only [accepts, Bool.and_eq_true, decide_eq_true_eq] at haccepts
  exact (saturatingAdd_le_iff (by decide)).mp haccepts.2

/-- A context takes no room. -/
lemma Ledger.setContext (h : Ledger z r) (hget : r.parts.lookup key = some p) :
    Ledger z { r with parts := r.parts.insert key (named p incoming) } := by
  have hp := h.kept key p hget
  have hnamed : (named p incoming).Kept z := ⟨hp.stocked.withCtx _, hp.charged, hp.got⟩
  have htotal := total_erase hget retained
  refine ⟨⟨?_, h.orderBytes, ?_, fun key' p' hp' => ?_, h.slot,
    fun key' p' hp' => kept_insert h.kept hnamed hp'⟩, h.short⟩
  · rw [h.held, total_insert, htotal]
  · rw [size_insert_of_lookup hget]
    exact h.few
  · rcases lookup_insert_cases hp' with ⟨rfl, rfl⟩ | ⟨-, hother⟩
    · exact h.slotted key' p hget
    · exact h.slotted key' p' hother

/-- A fragment that joins a live partial keeps the accounts. The budget is kept when its charge
covers the places it lets be filled. -/
lemma Ledger.joined (h : Ledger z r) (hid : identify d f = some (key, incoming))
    (hget : r.parts.lookup key = some p) (haccepts : p.accepts f incoming = true)
    (hbudget : saturatingAdd r.heldBytes (p.charge z f) ≤ fragMaxHeldBytes)
    (hend : pastEnd p f = false) (nowMs : Nat) :
    Lands z f (p.PlacesWithin (p.cap + p.charge z f) f)
      (r.land z key p false f incoming nowMs) := by
  have hp := h.kept key p hget
  have hbytes := bytes_le_of_accepts haccepts
  have hsum := (saturatingAdd_le_iff fragMaxHeldBytes_lt).mp hbudget
  have hstocked : (named p incoming).Stocked z := hp.stocked.withCtx _
  obtain ⟨hq, hms⟩ := kept_absorb hstocked hid hbytes hend hbudget
  have hgrow := footprint_absorb_le hstocked hbytes hbudget hend
  have hsame : (named p incoming).footprint z = p.footprint z := rfl
  rw [land_joined hend]
  generalize (named p incoming).absorb z f = q at hq hms hgrow ⊢
  obtain ⟨hbooks, hheld⟩ := h.update hget (named p incoming) rfl hq hms
  refine hbooks.lands (AList.lookup_insert _) fun hin => ?_
  have hadd : q.footprint z ≤ p.footprint z + p.charge z f := hsame ▸ hgrow hin
  rw [hp.charged, hq.charged] at hheld
  omega

/-- What opens a partial is what a fragment of an empty one is charged. -/
lemma estimate_eq (hid : identify d f = some (key, incoming)) (nowMs : Nat) :
    estimate z f = (Partial.new f.total incoming nowMs).charge z f + z.node + z.slot := by
  obtain ⟨hpos, -, -, hlen⟩ := shape_of_identify hid
  unfold estimate Partial.charge
  by_cases h0 : f.idx = 0
  · have hle : f.chunk.length ≤ Partial.reserveFor f :=
      Nat.le_min.mpr ⟨Nat.le_mul_of_pos_left _ hpos, hlen⟩
    simp [h0, Partial.posOf, Partial.new, Nat.max_eq_right hle]
  have hnone : Partial.posOf (Partial.new f.total incoming nowMs).firstLen
      (Partial.new f.total incoming nowMs).unit f.idx = none := Partial.posOf_none_first h0
  rw [if_neg h0, hnone]
  rfl

lemma named_new (total : UInt8) (incoming : Option FragCtx) (nowMs : Nat) :
    named (Partial.new total incoming nowMs) incoming = Partial.new total incoming nowMs := by
  cases incoming <;> rfl

lemma placesWithin_new (f : Wire.FragView) (incoming : Option FragCtx) (nowMs : Nat) :
    (Partial.new f.total incoming nowMs).PlacesWithin
      ((Partial.new f.total incoming nowMs).charge z f) f := by
  refine ⟨fun pos hpos => ?_, by simp [Partial.new]⟩
  have h0 : f.idx = 0 := by
    by_contra h0
    rw [place, firstAfter_of_ne h0] at hpos
    cases (posOf_none_first h0).symm.trans hpos
  rw [place, h0, posOf, if_pos rfl, Option.mem_some_iff] at hpos
  have hsome : (Partial.posOf (Partial.new f.total incoming nowMs).firstLen
      (Partial.new f.total incoming nowMs).unit f.idx).isSome := by
    rw [h0]
    rfl
  rw [← hpos, charge, if_pos hsome]
  omega

/-- A fragment that opens a partial keeps the accounts and the budget. -/
lemma Ledger.opened (h : Ledger z r) (hid : identify d f = some (key, incoming))
    (hget : r.parts.lookup key = none) (hroom : r.hasRoom (estimate z f) = true) (nowMs : Nat) :
    Lands z f True (r.land z key (Partial.new f.total incoming nowMs) true f incoming nowMs) := by
  obtain ⟨hpos, -, -, hlen⟩ := shape_of_identify hid
  simp only [hasRoom, Bool.and_eq_true, decide_eq_true_eq] at hroom
  obtain ⟨hfew, hbudget⟩ := hroom
  rw [saturatingAdd_le_iff fragMaxHeldBytes_lt, estimate_eq hid nowMs] at hbudget
  have hend := pastEnd_new hid nowMs
  rw [land_new hend, named_new]
  have hin := placesWithin_new (z := z) f incoming nowMs
  have hempty : (Partial.new f.total incoming nowMs).footprint z = z.node := by
    simp [Partial.footprint, Partial.new, Partial.waitingCharge]
  have hstocked : (Partial.new f.total incoming nowMs).Stocked z :=
    stocked_new (by omega) f.total incoming nowMs
  have hbytes : (Partial.new f.total incoming nowMs).bytes + f.chunk.length ≤ fragMaxPayload := by
    change 0 + f.chunk.length ≤ fragMaxPayload
    omega
  have hcharge : saturatingAdd r.heldBytes ((Partial.new f.total incoming nowMs).charge z f) ≤
      fragMaxHeldBytes := by
    rw [saturatingAdd_le_iff fragMaxHeldBytes_lt]
    omega
  obtain ⟨hq, hms⟩ := kept_absorb hstocked hid hbytes hend hcharge
  have hgrow := footprint_absorb_le hstocked hbytes hcharge hend
    (by rw [show (Partial.new f.total incoming nowMs).cap = 0 from rfl, Nat.zero_add]; exact hin)
  rw [hempty] at hgrow
  obtain ⟨hbooks, hheld⟩ := h.openPartial hget (Partial.new f.total incoming nowMs) rfl hq hfew
    (by omega) hms
  refine hbooks.lands (AList.lookup_insert _) fun _ => ?_
  rw [hheld, hq.charged]
  omega

/-- A fragment joins a live partial and lets a chunk be placed behind what is charged for it. -/
def outgrows (z : Sizes) (r : Reassembler) (d : Bytes) (f : Wire.FragView) : Bool :=
  match identify d f with
  | none => false
  | some (key, incoming) =>
    (r.parts.lookup key).any fun p =>
      p.accepts f incoming && saturatingAdd r.heldBytes (p.charge z f) ≤ fragMaxHeldBytes &&
        !pastEnd p f && !decide (p.PlacesWithin (p.cap + p.charge z f) f)

/-- What a push does to the accounts: it lets partials go or records a context, or it takes its
fragment in. -/
lemma Ledger.pushed (h : Ledger z r) (d : Bytes) (f : Wire.FragView) (nowMs : Nat) :
    (Ledger z (r.pushFrame z d f nowMs).2 ∧
        (r.pushFrame z d f nowMs).2.heldBytes ≤ r.heldBytes ∧ r.taken z d f nowMs = []) ∨
      Lands z f (r.outgrows z d f = false) (r.pushFrame z d f nowMs) := by
  have hpushed := r.pushed_pushFrame z d f nowMs
  generalize r.pushFrame z d f nowMs = out at hpushed ⊢
  cases hpushed with
  | malformed hid => exact .inl ⟨h, le_refl _, by simp [taken, hid]⟩
  | whole _ hid hone => exact .inl ⟨h, le_refl _, by simp [taken, hid, hone]⟩
  | refused hid hmany hget hno =>
    refine .inl ⟨h, le_refl _, ?_⟩
    simp [taken, hid, hget, Bool.and_eq_true, decide_eq_true_eq, if_neg hno]
  | @joined key incoming p hid hmany hget haccepts hbudget =>
    cases hend : pastEnd p f with
    | true =>
      rw [land_pastEnd hend (h.kept key p hget).got]
      exact .inl ⟨h.setContext hget, le_refl _,
        by simp [taken, hid, hmany, hget, haccepts, hbudget, hend]⟩
    | false =>
      obtain ⟨hledger, hheld, hqueue⟩ := h.joined hid hget haccepts hbudget hend nowMs
      refine .inr ⟨hledger, fun hfits => hheld (of_decide_eq_true ?_), hqueue⟩
      simpa [outgrows, hid, hget, haccepts, hbudget, hend] using hfits
  | @crowded key incoming r' hid hmany hget hroom =>
    have hshrinks := h.shrinks_swept (swept_makeRoom z r (estimate z f))
    rw [hroom] at hshrinks
    exact .inl ⟨hshrinks.ledger, hshrinks.heldBytes_le, by simp [taken, hid, hmany, hget, hroom]⟩
  | @opened key incoming r' hid _ hget hroom =>
    have hshrinks := h.shrinks_swept (swept_makeRoom z r (estimate z f))
    have hdone := hasRoom_makeRoom (z := z) (r := r) (estimate z f)
    rw [hroom] at hshrinks hdone
    have hfree : r'.parts.lookup key = none := by
      cases hget' : r'.parts.lookup key with
      | none => rfl
      | some p => exact absurd ((hshrinks.sub key p hget').symm.trans hget) (by simp)
    obtain ⟨hledger, hheld, hqueue⟩ := hshrinks.ledger.opened hid hfree (hdone rfl) nowMs
    exact .inr ⟨hledger, fun _ => hheld trivial, hqueue⟩

end

def next (z : Sizes) (r : Reassembler) : ReasmEvent → Reassembler
  | .push d f nowMs => (r.pushFrame z d f nowMs).2
  | .expire nowMs => r.expire z nowMs
  | .dropSession session => r.dropSession session
  | .dropFlow wireId => r.dropFlow wireId

variable {r : Reassembler}

lemma Ledger.next {z : Sizes} (h : Ledger z r) (ev : ReasmEvent) : Ledger z (r.next z ev) := by
  cases ev with
  | push d f nowMs =>
    rcases h.pushed d f nowMs with ⟨hledger, -, -⟩ | hlands
    · exact hledger
    · exact hlands.ledger
  | expire nowMs => exact (h.shrinks_expire nowMs).ledger
  | dropSession session => exact (h.shrinks_dropSession session).ledger
  | dropFlow wireId => exact (h.shrinks_dropFlow wireId).ledger

/-- The accounts are right after every run. -/
lemma ledger_after (z : Sizes) (es : List ReasmEvent) : Ledger z (after (next z) new es) :=
  after_of_kept (fun _ ev h => h.next ev) (ledger_new z) es

/-- The queue is within two slots a live partial and the slack. -/
def QueueWithin (r : Reassembler) : Prop :=
  r.order.length ≤ 2 * r.parts.size + orderSlotLimit

instance (r : Reassembler) : Decidable r.QueueWithin := by
  unfold QueueWithin
  infer_instance

lemma Ledger.queueWithin_expire {z : Sizes} (h : Ledger z r) (nowMs : Nat) :
    (r.expire z nowMs).QueueWithin :=
  (h.shrinks_swept (swept_expireFrom z nowMs r)).ledger.toBooks.prune.2.2

/-- A fragment that is taken in and completes nothing leaves the queue within its bound. -/
lemma Ledger.queueWithin_push {z : Sizes} (h : Ledger z r) {d : Bytes} {f : Wire.FragView}
    {nowMs : Nat} (htaken : r.taken z d f nowMs = [f])
    (hnone : (r.pushFrame z d f nowMs).1 = none) : (r.pushFrame z d f nowMs).2.QueueWithin := by
  rcases h.pushed d f nowMs with ⟨-, -, hnot⟩ | hlands
  · rw [hnot] at htaken
    cases htaken
  · exact hlands.queue hnone

/-- After every run the held octets are the charges of the live partials and of the queue, each
partial is charged for what it takes up and has its slot, and there are no more partials and slots
than allowed. An expiry, and a fragment that is taken in without completing its payload, leave no
more than two slots a live partial and the slack. -/
theorem accounts_exact (z : Sizes) (es : List ReasmEvent) :
    let r := after (next z) new es
    r.heldBytes = r.parts.total retained + r.order.length * z.slot ∧
      (∀ key p, r.parts.lookup key = some p →
        p.retained = p.footprint z ∧ (key, p.firstMs) ∈ r.order) ∧
      r.parts.size ≤ fragMaxPartials ∧
      r.order.length ≤ 2 * fragMaxPartials + orderSlotLimit ∧
      (∀ nowMs, (r.expire z nowMs).QueueWithin) ∧
      ∀ d f nowMs, r.taken z d f nowMs = [f] → (r.pushFrame z d f nowMs).1 = none →
        (r.pushFrame z d f nowMs).2.QueueWithin := by
  intro r
  have h : Ledger z r := ledger_after z es
  exact ⟨h.heldBytes_eq, fun key p hp => ⟨(h.kept key p hp).charged, h.slotted key p hp⟩, h.few,
    h.short, h.queueWithin_expire, fun _ _ _ => h.queueWithin_push⟩

/-- The first of two fragments of a session's payload. -/
private def half (fragId : UInt32) : ReasmEvent :=
  .push [0] ⟨none, some 7, some (.ip (.v4 (.new 9 9 9 9) 53)), false, fragId, 0, 2, 0, [0]⟩ 0

theorem accounts_exact_after_half :
    let r := after (next ⟨168, 40, 24⟩) new [half 1]
    r.heldBytes = 194 ∧ r.order.length = 1 ∧
      (r.pushFrame ⟨168, 40, 24⟩ [0]
        ⟨some 4, none, none, false, 3, 0, 2, 0, [0]⟩ 5).2.QueueWithin :=
  ⟨by decide, by decide, (accounts_exact ⟨168, 40, 24⟩ [half 1]).2.2.2.2.2 _ _ _ (by decide)
    (by decide)⟩

/-- A closed session leaves its slots behind: none of its partials is live and there are more slots
than the slack. -/
theorem queue_outlives_session :
    let r := after (next ⟨168, 40, 24⟩) new
      ((List.range 65).map (fun i => half (UInt32.ofNat i)) ++ [.dropSession 7])
    r.parts.size = 0 ∧ r.order.length = 65 ∧ ¬r.QueueWithin := by
  decide +kernel

/-- No fragment outgrows what it is charged. -/
def WithinCharge (z : Sizes) (r : Reassembler) : ReasmEvent → Prop
  | .push d f _ => r.outgrows z d f = false
  | _ => True

instance (z : Sizes) (r : Reassembler) : (ev : ReasmEvent) → Decidable (r.WithinCharge z ev)
  | .push d f _ => inferInstanceAs (Decidable (r.outgrows z d f = false))
  | .expire _ | .dropSession _ | .dropFlow _ => inferInstanceAs (Decidable True)

/-- In every run in which no fragment outgrows what it is charged, the budget holds after every
event. -/
theorem budget_kept (z : Sizes) (es : List ReasmEvent)
    (hcharge : Along (next z) (WithinCharge z) new es) :
    Along (next z) (fun r ev => (r.next z ev).heldBytes ≤ fragMaxHeldBytes) new es := by
  have hstep : ∀ (r : Reassembler) (ev : ReasmEvent),
      Ledger z r ∧ r.heldBytes ≤ fragMaxHeldBytes → r.WithinCharge z ev →
        (r.next z ev).heldBytes ≤ fragMaxHeldBytes ∧
          Ledger z (r.next z ev) ∧ (r.next z ev).heldBytes ≤ fragMaxHeldBytes := by
    intro r ev ⟨h, hle⟩ hwithin
    have hnext : (r.next z ev).heldBytes ≤ fragMaxHeldBytes := by
      cases ev with
      | push d f nowMs =>
        rcases h.pushed d f nowMs with ⟨-, hshrunk, -⟩ | hlands
        · exact le_trans hshrunk hle
        · exact hlands.heldBytes_le hwithin
      | expire nowMs => exact le_trans (h.shrinks_expire nowMs).heldBytes_le hle
      | dropSession session => exact le_trans (h.shrinks_dropSession session).heldBytes_le hle
      | dropFlow wireId => exact le_trans (h.shrinks_dropFlow wireId).heldBytes_le hle
    exact ⟨hnext, h.next ev, hnext⟩
  exact Along.of_invariant hstep ⟨ledger_new z, Nat.zero_le _⟩ hcharge

/-- The first fragment of a payload of 64, of 128 octets. -/
private def lead (fragId : UInt32) : ReasmEvent :=
  .push (List.replicate 128 0) ⟨some 2, none, none, false, fragId, 0, 64, 0, List.replicate 128 0⟩ 0

/-- A fragment of a payload of 64. -/
private def piece (idx : UInt8) (chunk : Bytes) : ReasmEvent :=
  .push chunk ⟨some 2, none, none, false, 99, idx, 64, 0, chunk⟩ 0

/-- Partials that nearly use the budget up, and one that has its first two fragments. -/
private def crowd : List ReasmEvent :=
  (List.range 31).map (fun i => lead (UInt32.ofNat i)) ++
    [piece 0 [1], piece 1 (List.replicate 130 2)]

theorem budget_kept_in_crowd :
    let z : Sizes := ⟨168, 40, 24⟩
    Along (next z) (WithinCharge z) new crowd ∧
      Along (next z) (fun r ev => (r.next z ev).heldBytes ≤ fragMaxHeldBytes) new crowd :=
  ⟨by decide +kernel, budget_kept ⟨168, 40, 24⟩ crowd (by decide +kernel)⟩

/-- A fragment of 130 octets makes a buffer grow by 7930 and the budget is exceeded. -/
theorem budget_exceeded :
    (after (next ⟨168, 40, 24⟩) new crowd).heldBytes = 260227 ∧
      (after (next ⟨168, 40, 24⟩) new (crowd ++ [piece 62 (List.replicate 130 3)])).heldBytes =
        268157 ∧ fragMaxHeldBytes = 262144 := by
  decide +kernel

end Reassembler

end MyQuic2
