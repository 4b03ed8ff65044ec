import MyQuic2.Core.Run
import MyQuic2.Server.DnsGate
import Mathlib.Data.List.Perm.Basic

/-!
# Followers of a claim

A datagram that the gate has parked is handed back once or counted as refused. The
gate has a few slots only, and a claim or a late verdict takes one over without
looking at what is parked in it: what was parked there is neither.
-/

namespace MyQuic2

open List Option GateEntry

inductive GateCall where
  | claim (key : UInt64) (nowMs : Nat)
  | park (key : UInt64) (nowMs : Nat) (payload : Bytes)
  | takeParked (key : UInt64) (generation : UInt32)
  | finish (key : UInt64) (generation : UInt32) (unusable : Option Nat) (nowMs : Nat)

section

variable {α β : Type}

lemma flatMap_set_of_same {f : α → List β} {l : List α} {i : Nat} {a : α}
    (h : ∀ b, l[i]? = some b → f a = f b) : (l.set i a).flatMap f = l.flatMap f := by
  induction l generalizing i with
  | nil => rfl
  | cons b l ih =>
    cases i with
    | zero => rw [set_cons_zero, flatMap_cons, flatMap_cons, h b rfl]
    | succ i =>
      rw [set_cons_succ, flatMap_cons, flatMap_cons, ih fun c hc => h c hc]

/-- The element that passes the test is replaced where it stands. -/
lemma updateFirst_of_find? {p : α → Bool} {f : α → α} {l : List α} {b : α}
    (h : l.find? p = some b) :
    ∃ l₁ l₂, l = l₁ ++ b :: l₂ ∧ updateFirst p f l = l₁ ++ f b :: l₂ := by
  induction l with
  | nil => cases h
  | cons a l ih =>
    rw [updateFirst]
    by_cases ha : p a = true
    · rw [find?_cons_of_pos ha] at h
      obtain rfl := some.inj h
      exact ⟨[], l, rfl, if_pos ha⟩
    rw [find?_cons_of_neg ha] at h
    obtain ⟨l₁, l₂, hl, hnew⟩ := ih h
    exact ⟨a :: l₁, l₂, by rw [hl, cons_append], by rw [if_neg ha, hnew, cons_append]⟩

end

def slotFollowers (slot : Option GateEntry) : List Bytes := (slot.map (·.parked)).getD []

namespace DnsGate

/-- The followers of all claims. -/
def followers (g : DnsGate) : List Bytes := g.entries.flatMap slotFollowers

/-- The followers that a finish finds behind its claim. -/
def followersOf (g : DnsGate) (key : UInt64) (generation : UInt32) : List Bytes :=
  (g.live.filter (isFor key generation)).flatMap (·.parked)

/-- The slot that a call takes over from another claim. -/
def takenOver (g : DnsGate) : GateCall → Option Nat
  | .claim key nowMs =>
    if (g.hotVerdict key nowMs).isSome || (g.hit key nowMs).isSome then none
    else (g.freeSlot nowMs).getD (g.nextGeneration.toNat % dnsGateSlots)
  | .finish key generation (some _) nowMs =>
    let g := g.clearFollowers key generation
    if g.live.any (isFor key generation) ||
        g.live.any (fun e => e.key = key && nowMs < e.deadline) then none
    else g.freeSlot nowMs
  | _ => none

def SparesFollowers (g : DnsGate) (call : GateCall) : Prop :=
  ∀ i ∈ g.takenOver call, ∀ slot ∈ g.entries[i]?, slotFollowers slot = []

instance (g : DnsGate) (call : GateCall) : Decidable (g.SparesFollowers call) := by
  unfold SparesFollowers
  infer_instance

variable {g : DnsGate} {key : UInt64} {nowMs : Nat} {generation : UInt32}

lemma mem_live {e : GateEntry} : e ∈ g.live ↔ some e ∈ g.entries := by
  unfold live
  rw [mem_filterMap]
  constructor
  · rintro ⟨slot, hslot, rfl⟩
    exact hslot
  · intro he
    exact ⟨some e, he, rfl⟩

lemma followers_claim (h : g.SparesFollowers (.claim key nowMs)) :
    (g.claim key nowMs).2.followers = g.followers := by
  unfold SparesFollowers takenOver at h
  unfold claim
  cases hhot : g.hotVerdict key nowMs with
  | some st => cases st <;> rfl
  | none =>
    cases hhit : g.hit key nowMs with
    | some e => rfl
    | none =>
      simp only [hhot, hhit] at h ⊢
      exact flatMap_set_of_same fun b hb => (h _ rfl b hb).symm

lemma count_followers_park {payload : Bytes} (p : Bytes) :
    (g.park key nowMs payload).2.followers.count p =
      g.followers.count p + (if (g.park key nowMs payload).1 then [payload] else []).count p := by
  unfold park
  cases hfind : g.live.find? (isOpen key nowMs) with
  | none => simp
  | some e =>
    dsimp only
    split
    · simp
    have hslot : g.entries.find? (fun slot => slot.any (isOpen key nowMs)) = some (some e) := by
      rw [find?_slot]
      exact congrArg (Option.map some) hfind
    obtain ⟨l₁, l₂, hl, hnew⟩ := updateFirst_of_find? (f := Option.map fun e : GateEntry =>
      { e with
        parked := e.parked ++ [payload], parkedBytes := e.parkedBytes + payload.length }) hslot
    unfold followers
    rw [hnew, hl]
    simp only [flatMap_append, flatMap_cons, count_append, slotFollowers,
      map_some, getD_some, if_true]
    omega

section

variable (g : DnsGate) (key : UInt64) (generation : UInt32) (p : Bytes)

lemma count_followers_takeParked :
    g.followers.count p =
      (g.takeParked key generation).1.count p +
        (g.takeParked key generation).2.followers.count p := by
  unfold takeParked
  cases hfind : g.live.find? (isFor key generation) with
  | none => simp
  | some e =>
    have hslot : g.entries.find? (fun slot => slot.any (isFor key generation)) = some (some e) := by
      rw [find?_slot]
      exact congrArg (Option.map some) hfind
    obtain ⟨l₁, l₂, hl, hnew⟩ := updateFirst_of_find? (f := Option.map dropParked) hslot
    unfold followers
    rw [hnew, hl]
    simp only [flatMap_append, flatMap_cons, count_append, slotFollowers,
      map_some, getD_some, dropParked, count_nil]
    omega

/-- A finish takes the followers of its claim out of the gate. -/
lemma count_followers_clearFollowers :
    g.followers.count p =
      (g.followersOf key generation).count p +
        (g.clearFollowers key generation).followers.count p := by
  unfold followers followersOf live clearFollowers
  induction g.entries with
  | nil => rfl
  | cons slot l ih =>
    cases slot with
    | none =>
      simpa [slotFollowers] using ih
    | some e =>
      by_cases he : e.isFor key generation = true
      · simp only [slotFollowers, flatMap_cons, filterMap_cons, id_eq, map_cons, map_some,
          getD_some, filter_cons, he, if_true, count_append, dropParked, count_nil] at ih ⊢
        omega
      simp only [slotFollowers, flatMap_cons, filterMap_cons, id_eq, map_cons, map_some, getD_some,
        filter_cons, he, if_false, count_append, Bool.false_eq_true] at ih ⊢
      omega

lemma noFollowers_clearFollowers :
    (g.clearFollowers key generation).NoFollowers key generation := by
  intro e he hfor
  obtain ⟨slot, -, heq⟩ := mem_map.mp he
  obtain ⟨e₀, -, rfl⟩ := map_eq_some_iff.mp heq
  split at hfor
  · next hown => rw [if_pos hown]; rfl
  · next hown => exact absurd hfor hown

end

/-- A finish counts what it finds behind its claim. -/
lemma finish_fst (unusable : Option Nat) :
    (g.finish key generation unusable nowMs).1 = (g.followersOf key generation).length := by
  unfold finish followersOf
  rw [length_flatMap]

lemma followers_set {i : Nat} {slot : Option GateEntry} (hnew : slotFollowers slot = [])
    (hold : ∀ b ∈ g.entries[i]?, slotFollowers b = []) :
    (g.entries.set i slot).flatMap slotFollowers = g.followers :=
  flatMap_set_of_same fun b hb => hnew.trans (hold b hb).symm

/-- The slot of the claim itself holds nothing once its followers are taken. -/
lemma followers_own {i : Nat} (hown : (g.clearFollowers key generation).entries.findIdx?
      (fun slot => slot.any (isFor key generation)) = some i) :
    ∀ b ∈ (g.clearFollowers key generation).entries[i]?, slotFollowers b = [] := by
  intro b hb
  obtain ⟨hi, hany, -⟩ := findIdx?_eq_some_iff_getElem.mp hown
  rw [getElem?_eq_getElem hi, mem_some_iff] at hb
  rw [hb] at hany
  cases b with
  | none => rfl
  | some e => exact noFollowers_clearFollowers g key generation e (hb ▸ getElem_mem hi) hany

/-- Without an entry of the claim, nothing is taken out. -/
lemma slotFollowers_clear {i : Nat}
    (hspare : ∀ slot ∈ g.entries[i]?, slotFollowers slot = []) :
    ∀ b ∈ (g.clearFollowers key generation).entries[i]?, slotFollowers b = [] := by
  intro b hb
  unfold clearFollowers at hb
  rw [getElem?_map, mem_def, map_eq_some_iff] at hb
  obtain ⟨slot, hslot, rfl⟩ := hb
  have hnone := hspare slot hslot
  cases slot with
  | none => rfl
  | some e =>
    rw [map_some]
    split
    · rfl
    · exact hnone

/-- The verdict of a finish takes no followers away but those of its claim. -/
lemma followers_finish {unusable : Option Nat}
    (h : g.SparesFollowers (.finish key generation unusable nowMs)) :
    (g.finish key generation unusable nowMs).2.followers =
      (g.clearFollowers key generation).followers := by
  unfold finish
  dsimp only
  cases hown : (g.clearFollowers key generation).entries.findIdx?
      fun slot => slot.any (isFor key generation) with
  | some i =>
    cases unusable with
    | some _ | none => exact followers_set rfl (followers_own hown)
  | none =>
    cases unusable with
    | none => dsimp only; split <;> rfl
    | some ttl =>
      dsimp only
      split
      · rfl
      rename_i hlive
      cases hfree : (g.clearFollowers key generation).freeSlot nowMs with
      | none => rfl
      | some i =>
        refine followers_set rfl (slotFollowers_clear (h i ?_))
        have hnone : (g.clearFollowers key generation).live.any (isFor key generation) = false := by
          rw [List.any_eq_false]
          intro e he hfor
          rw [List.findIdx?_eq_none_iff] at hown
          have hnot := hown (some e) (mem_live.mp he)
          rw [any_some] at hnot
          rw [hfor] at hnot
          cases hnot
        unfold takenOver
        dsimp only
        rw [hnone, Bool.false_or, if_neg hlive]
        exact hfree

end DnsGate

structure FollowerLedger where
  gate : DnsGate
  accepted : List Bytes
  returned : List Bytes
  refused : List Bytes
  counted : Nat

namespace FollowerLedger

def start : FollowerLedger := ⟨.new, [], [], [], 0⟩

def next (s : FollowerLedger) : GateCall → FollowerLedger
  | .claim key nowMs => { s with gate := (s.gate.claim key nowMs).2 }
  | .park key nowMs payload =>
    let r := s.gate.park key nowMs payload
    { s with
      gate := r.2
      accepted := s.accepted ++ if r.1 then [payload] else [] }
  | .takeParked key generation =>
    let r := s.gate.takeParked key generation
    { s with
      gate := r.2
      returned := s.returned ++ r.1 }
  | .finish key generation unusable nowMs =>
    let r := s.gate.finish key generation unusable nowMs
    { s with
      gate := r.2
      refused := s.refused ++ s.gate.followersOf key generation
      counted := s.counted + r.1 }

/-- No call takes over a slot with followers in it. -/
def Spares (s : FollowerLedger) (call : GateCall) : Prop := s.gate.SparesFollowers call

instance (s : FollowerLedger) (call : GateCall) : Decidable (s.Spares call) := by
  unfold Spares
  infer_instance

/-- Every follower that was parked is handed back, counted, or still there. -/
structure Balanced (s : FollowerLedger) : Prop where
  kept : ∀ p, s.accepted.count p = s.returned.count p + s.refused.count p + s.gate.followers.count p
  counted : s.counted = s.refused.length

lemma Balanced.next {s : FollowerLedger} (h : s.Balanced) {call : GateCall}
    (hspare : s.Spares call) : (s.next call).Balanced := by
  cases call with
  | claim key nowMs =>
    refine ⟨fun p => ?_, h.counted⟩
    have hsame := DnsGate.followers_claim hspare
    have hkept := h.kept p
    dsimp only [FollowerLedger.next]
    rw [hsame]
    exact hkept
  | park key nowMs payload =>
    refine ⟨fun p => ?_, h.counted⟩
    have hkept := h.kept p
    dsimp only [FollowerLedger.next]
    rw [count_append, DnsGate.count_followers_park p]
    omega
  | takeParked key generation =>
    refine ⟨fun p => ?_, h.counted⟩
    have hkept := h.kept p
    have htaken := s.gate.count_followers_takeParked key generation p
    dsimp only [FollowerLedger.next]
    rw [count_append]
    omega
  | finish key generation unusable nowMs =>
    constructor
    · intro p
      have hkept := h.kept p
      have htaken := s.gate.count_followers_clearFollowers key generation p
      dsimp only [FollowerLedger.next]
      rw [count_append, DnsGate.followers_finish hspare]
      omega
    · dsimp only [FollowerLedger.next]
      rw [length_append, DnsGate.finish_fst, h.counted]

lemma balanced_start : start.Balanced := ⟨fun _ => rfl, rfl⟩

/-- What a run has parked is handed back once, counted as refused once, or still parked behind a
claim that has not finished: a finish leaves nothing behind its claim. -/
theorem followers_accounted (calls : List GateCall) (h : Along next Spares start calls) :
    let s := after next start calls
    s.accepted.Perm (s.returned ++ s.refused ++ s.gate.followers) ∧
      s.counted = s.refused.length ∧
        ∀ key generation unusable nowMs,
          (s.gate.finish key generation unusable nowMs).2.NoFollowers key generation := by
  have hbalanced : (after next start calls).Balanced :=
    after_of_invariant (fun s call hs hcall => hs.next hcall) balanced_start h
  refine ⟨?_, hbalanced.counted, fun key generation unusable nowMs => ?_⟩
  · rw [perm_iff_count]
    intro p
    rw [count_append, count_append]
    exact hbalanced.kept p
  · have hclear := DnsGate.noFollowers_clearFollowers (after next start calls).gate key generation
    exact DnsGate.Each.finish_of_clear (fun _ _ => rfl) unusable nowMs hclear

/-- Every slot is claimed in the end, the first one with a follower behind it. -/
def contended : List GateCall :=
  [.claim 1 0, .park 1 0 [7], .claim 2 0, .claim 3 0, .claim 4 0, .claim 5 0, .claim 6 0,
    .claim 7 0, .claim 8 0, .claim 9 0, .takeParked 1 0, .finish 1 0 none 1]

/-- The ninth claim takes over the slot of the first one, and its follower is gone. -/
theorem taken_over_follower_lost :
    let s := after next start contended
    s.accepted = [[7]] ∧ s.returned = [] ∧ s.counted = 0 ∧ s.gate.followers = [] := by
  decide +kernel

/-- A follower that is handed back before the ninth claim is accounted for. -/
theorem followers_accounted_contended :
    let s := after next start (contended.take 2 ++ .takeParked 1 0 :: contended.drop 2)
    s.accepted.Perm (s.returned ++ s.refused ++ s.gate.followers) :=
  (followers_accounted (contended.take 2 ++ .takeParked 1 0 :: contended.drop 2)
    (by decide +kernel)).1

end FollowerLedger

end MyQuic2
