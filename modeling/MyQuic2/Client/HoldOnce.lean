import MyQuic2.Client.HoldSteps

/-!
# Held payloads are sent once

The places of a payload are counted together: held, in the burst, taken by a stager,
sent past it, or in the sender's hands. Sends, flushes, expiry and the steps of other
tasks at the stagers keep the count at one for every payload that was not given up.
-/

namespace MyQuic2

open List UplinkPending UplinkHold

namespace UplinkHold

/-- Times a payload is anywhere. -/
def load (s : UplinkHold) (number : Nat) : Nat := s.held number + s.handed number

/-- Every payload is in one place: held, handed over, with the sender, or given up. -/
structure Tracked (hand : List Nat) (s : UplinkHold) : Prop where
  stages : s.Stages
  once : ∀ k, s.load k + hand.count k ≤ 1
  given : ∀ k < s.made, s.load k + hand.count k = 0 → k ∈ s.given
  fresh : ∀ k, s.made ≤ k → s.load k + hand.count k = 0

section

variable {s s' : UplinkHold} {hand hand' : List Nat}

/-- Payloads change their places. -/
lemma Tracked.moves (h : Tracked hand s) (hstages : s'.Stages) (hmade : s'.made = s.made)
    (lost : List Nat) (hgiven : s'.given = s.given ++ lost)
    (hmoved : ∀ k, s.load k + hand.count k = s'.load k + hand'.count k + lost.count k) :
    Tracked hand' s' := by
  refine ⟨hstages, fun k => ?_, fun k hk hzero => ?_, fun k hk => ?_⟩
  · have hk := hmoved k
    have hone := h.once k
    omega
  · rw [hgiven, mem_append]
    by_cases hlost : k ∈ lost
    · exact .inr hlost
    have hcount := count_eq_zero_of_not_mem hlost
    have hk' := hmoved k
    exact .inl (h.given k (hmade ▸ hk) (by omega))
  · have hk' := hmoved k
    have hzero := h.fresh k (hmade ▸ hk)
    omega

lemma Tracked.passes (h : Tracked hand s) (hp : Passes hand hand' s s') : Tracked hand' s' := by
  obtain ⟨lost, hgiven, hmoved⟩ := hp.moved
  refine h.moves (hp.stages h.stages) hp.made lost hgiven fun k => ?_
  have hk := hmoved k
  have hheld : s'.held k = s.held k := by rw [held, hp.pending, held]
  simp only [load]
  omega

/-- Giving up more changes no place. -/
lemma Tracked.giveUp (h : Tracked hand s) (numbers : List Nat) :
    Tracked hand (s.giveUp numbers) where
  stages := ⟨h.stages.books, h.stages.entered⟩
  once := h.once
  given k hk hzero := mem_append_left _ (h.given k hk hzero)
  fresh := h.fresh

/-- The number of a payload that comes in. -/
lemma Tracked.make (h : Tracked [] s) : Tracked [s.made] { s with made := s.made + 1 } := by
  refine ⟨⟨h.stages.books, h.stages.entered⟩, fun k => ?_, fun k hk hzero => ?_, fun k hk => ?_⟩
  · have hone := h.once k
    have hfresh := h.fresh k
    rw [count_singleton]
    split
    · rename_i hk
      have := hfresh (beq_iff_eq.mp hk).le
      change s.load k + 1 ≤ 1
      omega
    · exact hone
  · rw [count_singleton] at hzero
    split at hzero
    · omega
    rename_i hne
    have hne' : s.made ≠ k := fun heq => hne (beq_iff_eq.mpr heq)
    have hk' : k < s.made + 1 := hk
    exact h.given k (by omega) hzero
  · have hk' : s.made + 1 ≤ k := hk
    rw [count_singleton, if_neg (fun heq => by have := beq_iff_eq.mp heq; omega)]
    exact h.fresh k (by omega)

variable {items : List HeldPayload} {p : HeldPayload}

lemma popPending_items (h : s.pending.items = p :: items) : s.popPending.pending.items = items := by
  unfold popPending popFront
  rw [h]

/-- The sender takes the first payload. -/
lemma Tracked.popPending (h : Tracked [] s) (hitems : s.pending.items = p :: items) :
    Tracked [p.number] s.popPending := by
  refine h.moves ⟨h.stages.books, h.stages.entered⟩ rfl [] (append_nil _).symm fun k => ?_
  have hheld : s.held k = s.popPending.held k + [p.number].count k := by
    rw [held, held, popPending_items hitems, hitems, map_cons, count_cons, count_singleton]
  have hhanded : s.popPending.handed k = s.handed k := rfl
  simp only [load, count_nil]
  omega

/-- A payload that was not handed over goes back. -/
lemma Tracked.putBack (h : Tracked hand s) (hhand : hand = [] ∨ hand = [p.number])
    (hmade : p.number < s.made) (h0 : s.load p.number = 0) : Tracked [] (s.putBack p) := by
  have hload (k : Nat) : (s.putBack p).load k = s.load k + if p.number = k then 1 else 0 := by
    have hheld : (s.putBack p).held k = s.held k + if p.number == k then 1 else 0 := count_cons
    have hhanded : (s.putBack p).handed k = s.handed k := rfl
    simp only [beq_iff_eq] at hheld
    rw [load, load, hhanded, hheld]
    omega
  have hcount (k : Nat) (hk : p.number ≠ k) : hand.count k = 0 := by
    rcases hhand with rfl | rfl
    · exact count_nil
    · exact count_eq_zero_of_not_mem fun hmem => hk (mem_singleton.mp hmem).symm
  refine ⟨⟨h.stages.books, h.stages.entered⟩, fun k => ?_, fun k hk hzero => ?_, fun k hk => ?_⟩
  · have hone := h.once k
    rw [count_nil, hload]
    split
    · next heq => rw [← heq, h0]
    · omega
  · rw [count_nil, hload] at hzero
    split at hzero
    · omega
    · next hne => exact h.given k hk (by rw [hcount k hne]; omega)
  · have hk' : s.made ≤ k := hk
    have hfresh := h.fresh k hk'
    rw [count_nil, hload, if_neg (by omega)]
    omega

lemma Tracked.unhold (h : Tracked [] s) {pending : UplinkPending} {lost : List HeldPayload}
    (hitems : s.pending.items = lost ++ pending.items) :
    Tracked [] { s.giveUp (lost.map HeldPayload.number) with pending := pending } := by
  refine h.moves ⟨h.stages.books, h.stages.entered⟩ rfl _ rfl fun k => ?_
  have hheld : s.held k = (lost.map HeldPayload.number).count k +
      (pending.items.map HeldPayload.number).count k := by
    rw [held, hitems, map_append, count_append]
  change s.held k + s.handed k + _ =
    (pending.items.map HeldPayload.number).count k + s.handed k + _ + _
  omega

lemma expired_append (nowMs : Nat) (q : UplinkPending) :
    q.items = expired nowMs q.items ++ (q.expire nowMs).items := by
  have htake : expired nowMs q.items = q.items.take (expired nowMs q.items).length :=
    prefix_iff_eq_take.mp ( takeWhile_prefix _)
  calc q.items = q.items.take (expired nowMs q.items).length ++
        q.items.drop (expired nowMs q.items).length :=
          (take_append_drop _ _).symm
    _ = expired nowMs q.items ++ (q.expire nowMs).items := by
          rw [← htake]
          rfl

lemma Tracked.expirePending (h : Tracked [] s) (nowMs : Nat) :
    Tracked [] (s.expirePending nowMs) := h.unhold (expired_append nowMs s.pending)

lemma Tracked.clearPending (h : Tracked [] s) : Tracked [] s.clearPending :=
  h.unhold (append_nil _).symm

/-- The sender disposes of the payload, or the connection is gone and it still has it. -/
lemma Tracked.leaves {number : Nat} (h : Tracked [number] s) {out : PayloadSend × UplinkHold}
    (hleaves : Leaves number s out) :
    Tracked [] out.2 ∨ (out.1.lost = true ∧ Tracked [number] out.2) := by
  rcases hleaves with hp | ⟨hlost, hp⟩
  · exact .inl (h.passes hp)
  · exact .inr ⟨hlost, h.passes hp⟩

/-- One payload of a flush that meets a connection that is gone. -/
lemma Tracked.sendBack {g : Nat} {e : SendTurn} (h : Tracked [p.number] s)
    (hclean : s.Clean g p e)
    (hlost : (s.sendUplink g p.number p.target p.payload e).1.lost = true) :
    Tracked [] ((s.sendUplink g p.number p.target p.payload e).2.putBack p) := by
  have hleaves := s.sendUplink_leaves g p.number p.target p.payload e
  have hone := h.once p.number
  rw [count_singleton_self] at hone
  have hload : s.load p.number = s.held p.number + s.handed p.number := rfl
  have hstays := hclean.stays (by omega) hlost
  have hheld : (s.sendUplink g p.number p.target p.payload e).2.held p.number = 0 := by
    rw [held, hleaves.pending]
    change s.held p.number = 0
    omega
  have h0 : (s.sendUplink g p.number p.target p.payload e).2.load p.number = 0 := by
    rw [load, hheld, hstays]
  have hmade : p.number < (s.sendUplink g p.number p.target p.payload e).2.made := by
    rw [hleaves.made]
    by_contra hge
    have hfresh := h.fresh p.number (Nat.le_of_not_lt hge)
    rw [count_singleton_self] at hfresh
    omega
  rcases h.leaves hleaves with ht | ⟨-, ht⟩
  · exact ht.putBack (.inl rfl) hmade h0
  · exact ht.putBack (.inr rfl) hmade h0

lemma Tracked.flushItems {g : Nat} {turn : Nat → SendTurn} {i : Nat} (aggregate : PayloadSend)
    (h : Tracked [] s) (hitems : s.pending.items = items) (hclean : CleanItems g turn items i s) :
    Tracked [] (flushItems g turn items i aggregate s).2 := by
  induction items generalizing s i aggregate with
  | nil => exact h
  | cons p items ih =>
    have hpop := h.popPending hitems
    have hleaves := s.popPending.sendUplink_leaves g p.number p.target p.payload (turn i)
    rw [flushItems]
    split
    · next hlost => exact hpop.sendBack hclean.1 hlost
    rename_i hlost
    have hlive := Bool.eq_false_of_not_eq_true hlost
    rcases hpop.leaves hleaves with ht | ⟨hgone, -⟩
    · refine ih _ ht ?_ (hclean.2 hlive)
      rw [hleaves.pending, popPending_items hitems]
    · exact absurd hgone hlost

lemma Tracked.sendPayloadUplink (h : Tracked [] s) (target : TargetAddr) (payload : Bytes)
    (nowMs : Nat) (handle : Option Nat) (e : SendTurn) :
    Tracked [] (s.sendPayloadUplink target payload nowMs handle e) := by
  have hmake := h.make
  unfold UplinkHold.sendPayloadUplink
  dsimp only
  split
  · rename_i g
    rcases hmake.leaves (sendUplink_leaves _ g s.made target payload e) with ht | ⟨hlost, ht⟩
    · split
      · exact ht.giveUp [s.made]
      · exact ht
    · rw [if_pos hlost]
      exact ht.passes (giveUp_passes _ [s.made])
  split
  · rename_i pending hpush
    unfold tryPush at hpush
    split at hpush
    · exact nomatch hpush
    obtain rfl := Option.some.inj hpush
    refine hmake.moves ⟨h.stages.books, h.stages.entered⟩ rfl [] (append_nil _).symm fun k => ?_
    simp only [load, held, map_append, map_cons, map_nil, count_append, count_nil]
    change _ + s.handed k + _ = _ + _ + s.handed k + _ + _
    omega
  · exact hmake.passes (giveUp_passes _ [s.made])

lemma Tracked.flushPendingUplink {nowMs : Nat} {handle : Option Nat} {turn : Nat → SendTurn}
    (h : Tracked [] s) (hclean : s.CleanFlush (.flush nowMs handle turn)) :
    Tracked [] (s.flushPendingUplink nowMs handle turn) := by
  have hexpire := h.expirePending nowMs
  unfold UplinkHold.flushPendingUplink
  dsimp only
  split
  · exact hexpire
  cases handle with
  | none => exact hexpire
  | some g => exact hexpire.flushItems _ rfl hclean

lemma Tracked.next (h : Tracked [] s) {ev : HoldEvent} (hclean : s.CleanFlush ev) :
    Tracked [] (s.next ev) := by
  cases ev with
  | stage g ev =>
    exact h.moves (h.stages.update ((h.stages.books_self g).next ev)) rfl []
      (append_nil _).symm fun _ => rfl
  | payload target payload nowMs handle e => exact h.sendPayloadUplink target payload nowMs handle e
  | flush nowMs handle turn => exact h.flushPendingUplink hclean
  | burstEnd g e => exact h.passes (s.sendAhead_passes g e)
  | exit => exact h.clearPending

lemma Tracked.placed (h : Tracked [] s) {number : Nat} (hnumber : number < s.made) :
    s.Placed number := by
  have hone := h.once number
  have hgiven := h.given number hnumber
  rw [count_nil, load] at hone hgiven
  by_cases hheld : s.held number = 1
  · exact .inl ⟨hheld, by omega⟩
  refine .inr ⟨by omega, ?_⟩
  by_cases hhanded : s.handed number = 1
  · exact .inl hhanded
  · exact .inr ⟨by omega, hgiven (by omega)⟩

end

end UplinkHold

end MyQuic2
