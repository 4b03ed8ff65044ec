import MyQuic2.Udp.AgeQueue

/-!
# Refused fragments

A fragment that is refused leaves the reassembler as it was: every later event meets
the same partials and yields the same payloads. The one exception is a fragment that
is refused for its place and leaves its context behind.
-/

namespace MyQuic2

open AList Reassembler

namespace Reassembler

/-- The same partials, queue and charges; the table may list the partials in another order. -/
structure Same (r r' : Reassembler) : Prop where
  parts : r.parts.entries.Perm r'.parts.entries
  order : r.order = r'.order
  held : r.held = r'.held
  orderBytes : r.orderBytes = r'.orderBytes

section

variable {z : Sizes} {r r' : Reassembler} {key : FragKey} {p : Partial}

lemma Same.refl (r : Reassembler) : Same r r := ⟨List.Perm.refl _, rfl, rfl, rfl⟩

section

variable (h : Same r r')
include h

lemma Same.lookup (key : FragKey) :
    r.parts.lookup key = r'.parts.lookup key := perm_lookup h.parts

lemma Same.size : r.parts.size = r'.parts.size := h.parts.length_eq

lemma Same.heldBytes : r.heldBytes = r'.heldBytes := by
  rw [Reassembler.heldBytes, Reassembler.heldBytes, h.held, h.orderBytes]

lemma Same.discard (key : FragKey) (p : Partial) : Same (r.discard key p) (r'.discard key p) :=
  ⟨perm_erase h.parts, h.order, by simp only [Reassembler.discard, h.held], h.orderBytes⟩

lemma Same.popSlot : Same (r.popSlot z) (r'.popSlot z) :=
  ⟨h.parts, by simp only [Reassembler.popSlot, h.order], h.held,
    by simp only [Reassembler.popSlot, h.orderBytes]⟩

lemma Same.insert (key : FragKey) (p : Partial) :
    Same { r with parts := r.parts.insert key p } { r' with parts := r'.parts.insert key p } :=
  ⟨perm_insert h.parts, h.order, h.held, h.orderBytes⟩

lemma Same.update (key : FragKey) (old q : Partial) :
    Same (r.update key old q) (r'.update key old q) :=
  ⟨perm_insert h.parts, h.order, by simp only [Reassembler.update, h.held], h.orderBytes⟩

lemma Same.queueSlot (key : FragKey) (nowMs : Nat) :
    Same (r.queueSlot z key nowMs) (r'.queueSlot z key nowMs) :=
  ⟨h.parts, by simp only [Reassembler.queueSlot, h.order], h.held,
    by simp only [Reassembler.queueSlot, h.orderBytes]⟩

lemma Same.retain (isOf : FragKey → Partial → Bool) :
    Same
      { r with
        parts := r.parts.retain fun key p => !isOf key p
        held := r.held -
          ((r.parts.entries.filter fun e => isOf e.1 e.2).map fun e => e.2.retained).sum }
      { r' with
        parts := r'.parts.retain fun key p => !isOf key p
        held := r'.held -
          ((r'.parts.entries.filter fun e => isOf e.1 e.2).map fun e => e.2.retained).sum } := by
  refine ⟨h.parts.filter _, h.order, ?_, h.orderBytes⟩
  have hsum := ((h.parts.filter fun e => isOf e.1 e.2).map fun e => e.2.retained).sum_nat
  simp only [h.held, hsum]

end

instance : Std.Antisymm fun a b : FragKey × Nat => slotLe a b = true where
  antisymm a b hab hba := by
    rw [slotLe_iff] at hab hba
    have hkey := le_antisymm hab hba
    obtain ⟨⟨ai, aid, af⟩, ams⟩ := a
    obtain ⟨⟨bi, bid, bf⟩, bms⟩ := b
    simp only [slotKey, toLex_inj, Prod.mk.injEq, UInt32.toNat_inj] at hkey
    obtain ⟨rfl, rfl, rfl, rfl⟩ := hkey
    rfl

/-- The rebuilt queue does not depend on the order of the table. -/
lemma Same.sortedSlots (h : Same r r') : r.sortedSlots = r'.sortedSlots :=
  List.Perm.eq_of_pairwise' (List.pairwise_insertionSort _ _) (List.pairwise_insertionSort _ _)
    (r.sortedSlots_perm.trans ((h.parts.map _).trans r'.sortedSlots_perm.symm))

lemma Same.pruneOrders (h : Same r r') : Same (r.pruneOrders z) (r'.pruneOrders z) := by
  rcases r.pruneOrders_cases z with ⟨hshort, hsame⟩ | ⟨hlong, hnew⟩
  · rcases r'.pruneOrders_cases z with ⟨-, hsame'⟩ | ⟨hlong', -⟩
    · rwa [hsame, hsame']
    · rw [h.order, h.size] at hshort
      omega
  rcases r'.pruneOrders_cases z with ⟨hshort', -⟩ | ⟨-, hnew'⟩
  · rw [h.order, h.size] at hlong
    omega
  · rw [hnew, hnew']
    exact ⟨h.parts, h.sortedSlots, h.held, by simp [h.sortedSlots]⟩

/-- Without a slot there is no live partial. -/
lemma Ledger.entries_eq_nil (h : Ledger z r) (horder : r.order = []) : r.parts.entries = [] := by
  cases hparts : r.parts.entries with
  | nil => rfl
  | cons e rest =>
    have hget : r.parts.lookup e.1 = some e.2 := mem_lookup_iff.mpr (by simp [hparts])
    have hmem := h.slotted e.1 e.2 hget
    rw [horder] at hmem
    cases hmem

variable (h : Same r r') (nowMs : Nat)
include h

lemma Same.evictFrom {slots : List (FragKey × Nat)} (hledger : Ledger z r)
    (horder : r.order = slots) :
    Same (evictFrom z slots r).1 (evictFrom z slots r').1 ∧
      (evictFrom z slots r).2 = (evictFrom z slots r').2 := by
  induction slots generalizing r r' with
  | nil =>
    have hnil := hledger.entries_eq_nil horder
    have hnil' : r'.parts.entries = [] := List.nil_perm.mp (hnil ▸ h.parts)
    simp only [evictFrom, hnil, hnil']
    exact ⟨h, trivial⟩
  | cons slot rest ih =>
    obtain ⟨key, firstMs⟩ := slot
    have hparts : (r.popSlot z).parts.lookup key = r.parts.lookup key := rfl
    have hparts' : (r'.popSlot z).parts.lookup key = r.parts.lookup key := (h.lookup key).symm
    cases hget : r.parts.lookup key with
    | none =>
      simp only [evictFrom, hparts, hparts', hget]
      exact ih h.popSlot (hledger.popStale horder (by simp [hget])) (order_popSlot horder)
    | some p =>
      by_cases hms : p.firstMs = firstMs
      · simp only [evictFrom, hparts, hparts', hget, if_pos hms]
        exact ⟨h.popSlot.discard key p, trivial⟩
      simp only [evictFrom, hparts, hparts', hget, if_neg hms]
      exact ih h.popSlot (hledger.popStale horder (by simpa [hget] using hms))
        (order_popSlot horder)

lemma Same.hasRoom (est : Nat) : r.hasRoom est = r'.hasRoom est := by
  rw [Reassembler.hasRoom, Reassembler.hasRoom, h.size, h.heldBytes]

lemma Same.makeRoom (hledger : Ledger z r) (est : Nat) :
    Same (r.makeRoom z est).1 (r'.makeRoom z est).1 ∧
      (r.makeRoom z est).2 = (r'.makeRoom z est).2 := by
  unfold Reassembler.makeRoom
  rw [← h.size]
  generalize r.parts.size + 1 = left
  induction left generalizing r r' with
  | zero => exact ⟨h, rfl⟩
  | succ left ih =>
    have hroom' := h.hasRoom est
    have hevicts := hledger.shrinks_swept (Swept.refl.evictFrom rfl)
    have hevict := h.evictFrom hledger rfl
    rw [← evictOldest] at hevicts hevict
    rw [h.order, ← evictOldest] at hevict
    cases hroom : r.hasRoom est with
    | true =>
      simp only [makeRoomLoop, ← hroom', hroom, if_true]
      exact ⟨h, trivial⟩
    | false =>
      rcases hout : r.evictOldest z with ⟨r₁, done⟩
      rcases hout' : r'.evictOldest z with ⟨r₁', done'⟩
      rw [hout, hout'] at hevict
      rw [hout] at hevicts
      obtain ⟨hsame, rfl⟩ := hevict
      cases done with
      | true =>
        simp only [makeRoomLoop, ← hroom', hroom, Bool.false_eq_true, if_false, hout, hout']
        exact ih hsame hevicts.ledger
      | false =>
        simp only [makeRoomLoop, ← hroom', hroom, Bool.false_eq_true, if_false, hout, hout']
        exact ⟨hsame, trivial⟩

lemma Same.expireFrom {slots : List (FragKey × Nat)} :
    Same (expireFrom z nowMs slots r) (expireFrom z nowMs slots r') := by
  induction slots generalizing r r' with
  | nil => exact h
  | cons slot rest ih =>
    obtain ⟨key, firstMs⟩ := slot
    have hparts' : r'.parts.lookup key = r.parts.lookup key := (h.lookup key).symm
    cases hget : r.parts.lookup key with
    | none =>
      simp only [expireFrom, hparts', hget]
      exact ih h.popSlot
    | some p =>
      simp only [expireFrom, hparts', hget]
      split
      · split
        · exact h
        · exact ih (h.popSlot.discard key p)
      · exact ih h.popSlot

lemma Same.expire : Same (r.expire z nowMs) (r'.expire z nowMs) := by
  unfold Reassembler.expire
  rw [← h.order]
  exact (h.expireFrom nowMs).pruneOrders

lemma Same.dropSession (session : UInt32) :
    Same (r.dropSession session) (r'.dropSession session) := h.retain _

lemma Same.dropFlow (wireId : UInt32) : Same (r.dropFlow wireId) (r'.dropFlow wireId) := by
  unfold Reassembler.dropFlow
  split
  · exact h
  · exact h.retain fun key _ => !key.inline && key.id = wireId

/-- The same result, and reassemblers that are the same again. -/
def SameOut (out out' : Option Assembled × Reassembler) : Prop :=
  out.1 = out'.1 ∧ Same out.2 out'.2

lemma Same.land (key : FragKey) (p : Partial) (isNew : Bool) (f : Wire.FragView)
    (incoming : Option FragCtx) (nowMs : Nat) :
    SameOut (r.land z key p isNew f incoming nowMs) (r'.land z key p isNew f incoming nowMs) := by
  unfold Reassembler.land
  simp only
  split
  · split
    · exact ⟨rfl, perm_erase h.parts, h.order, h.held, h.orderBytes⟩
    · exact ⟨rfl, h.insert key _⟩
  have hupdated := h.update key (named p incoming) ((named p incoming).absorb z f)
  have hqueued : Same (if isNew = true then
        (r.update key (named p incoming) ((named p incoming).absorb z f)).queueSlot z key nowMs
        else r.update key (named p incoming) ((named p incoming).absorb z f))
      (if isNew = true then
        (r'.update key (named p incoming) ((named p incoming).absorb z f)).queueSlot z key nowMs
        else r'.update key (named p incoming) ((named p incoming).absorb z f)) := by
    split
    · exact hupdated.queueSlot key nowMs
    · exact hupdated
  split
  · exact ⟨rfl, hqueued.pruneOrders.discard key _⟩
  · exact ⟨rfl, hqueued.pruneOrders⟩

lemma Same.pushFrame (hledger : Ledger z r) (d : Bytes) (f : Wire.FragView) (nowMs : Nat) :
    SameOut (r.pushFrame z d f nowMs) (r'.pushFrame z d f nowMs) := by
  cases hid : identify d f with
  | none =>
    simp only [Reassembler.pushFrame, hid]
    exact ⟨rfl, h⟩
  | some found =>
    obtain ⟨key, incoming⟩ := found
    have hget' : r'.parts.lookup key = r.parts.lookup key := (h.lookup key).symm
    have hheld := h.heldBytes
    simp only [Reassembler.pushFrame, hid, hget', ← hheld]
    split
    · exact ⟨rfl, h⟩
    cases r.parts.lookup key with
    | some p =>
      simp only
      split
      · exact h.land key p false f incoming nowMs
      · exact ⟨rfl, h⟩
    | none =>
      obtain ⟨hsame, hdone⟩ := h.makeRoom hledger (estimate z f)
      rcases hroom : r.makeRoom z (estimate z f) with ⟨r₁, room⟩
      rcases hroom' : r'.makeRoom z (estimate z f) with ⟨r₁', room'⟩
      rw [hroom, hroom'] at hsame hdone
      obtain rfl : room = room' := hdone
      cases room with
      | true => exact hsame.land key _ true f incoming nowMs
      | false => exact ⟨rfl, hsame⟩

def yields (z : Sizes) (r : Reassembler) : ReasmEvent → Option Assembled
  | .push d f nowMs => (r.pushFrame z d f nowMs).1
  | _ => none

/-- What the events of a run yield. -/
def outputs (z : Sizes) : Reassembler → List ReasmEvent → List (Option Assembled)
  | _, [] => []
  | r, ev :: es => r.yields z ev :: outputs z (r.next z ev) es

lemma Same.next (hledger : Ledger z r) (ev : ReasmEvent) :
    r.yields z ev = r'.yields z ev ∧ Same (r.next z ev) (r'.next z ev) := by
  cases ev with
  | push d f nowMs => exact h.pushFrame hledger d f nowMs
  | expire nowMs => exact ⟨rfl, h.expire nowMs⟩
  | dropSession session => exact ⟨rfl, h.dropSession session⟩
  | dropFlow wireId => exact ⟨rfl, h.dropFlow wireId⟩

/-- Every run yields the same from reassemblers that are the same. -/
lemma Same.outputs (hledger : Ledger z r) (es : List ReasmEvent) :
    outputs z r es = outputs z r' es := by
  induction es generalizing r r' with
  | nil => rfl
  | cons ev es ih =>
    obtain ⟨hyields, hnext⟩ := h.next hledger ev
    simp [outputs, hyields, ih hnext (hledger.next ev)]

end

/-- A fragment is refused: for its shape, by its live partial, or for its place. -/
def refuses (z : Sizes) (r : Reassembler) (d : Bytes) (f : Wire.FragView) : Bool :=
  match identify d f with
  | none => true
  | some (key, incoming) =>
    f.total ≠ 1 && (r.parts.lookup key).any fun p =>
      !(p.accepts f incoming && saturatingAdd r.heldBytes (p.charge z f) ≤ fragMaxHeldBytes) ||
        pastEnd p f

lemma named_of_known {p : Partial} {incoming : Option FragCtx}
    (h : p.ctx = none → incoming = none) : named p incoming = p := by
  obtain ⟨total, ctx, buf, cap, got, firstLen, unit, pending, pendingCap, bytes, retained,
    firstMs⟩ := p
  cases ctx with
  | some ctx => rfl
  | none =>
    rw [h rfl]
    rfl

lemma Ledger.push_of_refuses {z : Sizes} {r : Reassembler} (h : Ledger z r) {d : Bytes}
    {f : Wire.FragView} (hrefuses : r.refuses z d f = true) (nowMs : Nat) :
    (r.pushFrame z d f nowMs).1 = none ∧
      (r.leavesContext z d f = false → Same r (r.pushFrame z d f nowMs).2) ∧
      (r.leavesContext z d f = true →
        ∃ key, (r.pushFrame z d f nowMs).2.parts.lookup key ≠ r.parts.lookup key) := by
  have hpushed := r.pushed_pushFrame z d f nowMs
  generalize r.pushFrame z d f nowMs = out at hpushed ⊢
  cases hpushed with
  | malformed hid => exact ⟨rfl, fun _ => .refl r, by simp [leavesContext, hid]⟩
  | @refused _ incoming _ hid hmany hget hno =>
    refine ⟨rfl, fun _ => .refl r, fun hleft => ?_⟩
    cases incoming <;> simp_all [leavesContext]
  | whole a hid hone => simp [refuses, hid, hone] at hrefuses
  | @joined key incoming p hid hmany hget haccepts hbudget =>
    have hend : pastEnd p f = true := by
      simpa [refuses, hid, hmany, hget, haccepts, hbudget] using hrefuses
    rw [land_pastEnd hend (h.kept key p hget).got]
    refine ⟨rfl, fun hkeep => ?_, fun hleft => ⟨key, ?_⟩⟩
    · -- The context that the refused fragment brings is not new to the partial.
      have hknown : p.ctx = none → incoming = none := by
        intro hctx
        cases incoming with
        | none => rfl
        | some ctx => simp [leavesContext, hid, hget, hctx, haccepts, hbudget, hend] at hkeep
      rw [named_of_known hknown]
      refine ⟨?_, rfl, rfl, rfl⟩
      dsimp only
      rw [entries_insert]
      exact Map.perm_erase_of_lookup hget
    cases incoming with
    | none => simp [leavesContext, hid] at hleft
    | some ctx =>
      have hctx : p.ctx = none := by
        simpa [leavesContext, hid, hget, haccepts, hbudget, hend] using hleft
      rw [lookup_insert, hget]
      intro heq
      simpa [named, hctx] using congrArg Partial.ctx (Option.some.inj heq)
  | crowded hid hmany hget _ | opened hid hmany hget _ => simp [refuses, hid, hget] at hrefuses

/-- In every reachable reassembler a refused fragment yields nothing. One that leaves no context
behind changes no partial, slot or charge, and whatever follows yields what it would have yielded
without it; one that does changes its partial. -/
theorem refused_changes_nothing (z : Sizes) (es : List ReasmEvent) (d : Bytes) (f : Wire.FragView)
    (nowMs : Nat) (hrefuses : (after (next z) new es).refuses z d f = true) :
    let r := after (next z) new es
    let r' := (r.pushFrame z d f nowMs).2
    (r.pushFrame z d f nowMs).1 = none ∧
      (r.leavesContext z d f = false → (∀ key, r'.parts.lookup key = r.parts.lookup key) ∧
        r'.order = r.order ∧ r'.heldBytes = r.heldBytes ∧
        ∀ later, outputs z r' later = outputs z r later) ∧
      (r.leavesContext z d f = true → ∃ key, r'.parts.lookup key ≠ r.parts.lookup key) := by
  intro r r'
  have hledger : Ledger z r := ledger_after z es
  obtain ⟨hnone, hsame, hleft⟩ := hledger.push_of_refuses hrefuses nowMs
  refine ⟨hnone, fun hkeep => ?_, hleft⟩
  exact ⟨fun key => ((hsame hkeep).lookup key).symm, (hsame hkeep).order.symm,
    (hsame hkeep).heldBytes.symm, fun later => ((hsame hkeep).outputs hledger later).symm⟩

/-- The first two fragments of a payload of four. -/
private def twoQuarters : List ReasmEvent :=
  [TracedReasm.quarter false 0 [1], TracedReasm.quarter false 1 [2]]

/-- The last two. -/
private def lastQuarters : List ReasmEvent :=
  [TracedReasm.quarter false 2 [3], TracedReasm.quarter false 3 [4]]

theorem refused_changes_nothing_in_quarters :
    let z : Sizes := ⟨168, 40, 24⟩
    let r := after (next z) new twoQuarters
    -- A fragment of another total.
    let f : Wire.FragView := ⟨some 2, none, none, false, 5, 2, 5, 0, [9]⟩
    r.refuses z [9] f = true ∧
      outputs z (r.pushFrame z [9] f 0).2 lastQuarters = outputs z r lastQuarters :=
  ⟨by decide, ((refused_changes_nothing ⟨168, 40, 24⟩ twoQuarters [9]
    ⟨some 2, none, none, false, 5, 2, 5, 0, [9]⟩ 0 (by decide)).2.1 (by decide)).2.2.2 lastQuarters⟩

/-- A fragment that is refused for its place leaves its context with the partial, and the payload is
delivered with it. -/
theorem refused_fragment_leaves_context :
    let z : Sizes := ⟨168, 40, 24⟩
    let r := after (next z) new twoQuarters
    let chunk := List.replicate 8190 0
    let f : Wire.FragView :=
      ⟨some 2, some 9, some (.ip (.v4 (.new 8 8 8 8) 53)), false, 5, 3, 4, 0, chunk⟩
    let r' := (r.pushFrame z chunk f 0).2
    r.refuses z chunk f = true ∧ (r.pushFrame z chunk f 0).1 = none ∧
      r.parts.lookup ⟨false, 2, 5⟩ ≠ r'.parts.lookup ⟨false, 2, 5⟩ ∧
      outputs z r lastQuarters = [none, some ⟨some 2, none, none, false, [1, 2, 3, 4]⟩] ∧
      outputs z r' lastQuarters = [none,
        some ⟨some 2, some 9, some (.ip (.v4 (.new 8 8 8 8) 53)), false, [1, 2, 3, 4]⟩] := by
  decide +kernel

end Reassembler

end MyQuic2
