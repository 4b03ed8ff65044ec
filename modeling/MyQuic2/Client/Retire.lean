import MyQuic2.Core.Run

/-!
# Retired connections and the egress cache

A retirement clears the slot of its connection and then walks over the bindings and
clears those whose entry came from that slot. A refresh or a budget probe loads an
entry, examines its connection and stores a new entry built from it, and does not look
whether the walk has been there in between.
-/

namespace MyQuic2

open Function

def maxUdpSlots : Nat := 16

/-- A connection, by the slot it was dialled for and its number there. An entry of the cache was
published from the slot of its connection. -/
structure EgressConn where
  slot : Nat
  gen : Nat
  deriving DecidableEq

inductive RetirePlace where
  | idle
  /-- A refresh that has loaded the entry of its binding. -/
  | loaded (i : Nat) (c : EgressConn)
  /-- About to store an entry for the connection. -/
  | building (i : Nat) (c : EgressConn)
  /-- In `forget_slot` before the load of an entry. -/
  | forget (c : EgressConn) (i : Nat)
  /-- In `forget_slot` before the clear of an entry. -/
  | clear (c : EgressConn) (i : Nat)
  deriving DecidableEq

/-- The slots, the cache and the tasks, and of the history how many bindings the walk for a
connection has behind it. -/
structure EgressPool where
  shared : Nat → Option Nat
  gens : Nat → Nat
  dead : List EgressConn
  cached : Nat → Option EgressConn
  tasks : Nat → RetirePlace
  swept : EgressConn → Nat

inductive RetireAct where
  /-- The reconnect loop publishes a new connection. -/
  | dial (slot : Nat)
  | die (c : EgressConn)
  /-- A refresh loads the entry of its binding. -/
  | load (i : Nat)
  /-- A refresh looks at `close_reason`. -/
  | check
  /-- A refresh takes the connection of a slot. -/
  | scan (i slot : Nat)
  /-- A budget probe loads the entry of its binding. -/
  | probe (i : Nat)
  | store
  /-- The budget is not known or has not moved. -/
  | leave
  | invalidate (i : Nat)
  | retire (slot : Nat)
  /-- `forget_slot` loads the entry that it is at. -/
  | look
  | clear

namespace EgressPool

def new : EgressPool := ⟨fun _ => none, fun _ => 0, [], fun _ => none, fun _ => .idle, fun _ => 0⟩

section

variable (p : EgressPool) (t : Nat) (c : EgressConn) (i : Nat)

def goto (place : RetirePlace) : EgressPool :=
  { p with tasks := update p.tasks t place }

def put (e : Option EgressConn) : EgressPool :=
  { p with cached := update p.cached i e }

/-- The walk goes on behind a binding. -/
def pass : EgressPool :=
  { p with swept := update p.swept c (max (p.swept c) (i + 1)) }.goto t (.forget c (i + 1))

def step : RetirePlace → RetireAct → EgressPool
  | _, .dial slot =>
    { p with
      shared := update p.shared slot (some (p.gens slot))
      gens := update p.gens slot (p.gens slot + 1) }
  | _, .die c => { p with dead := c :: p.dead }
  | .idle, .load i =>
    match p.cached i with
    | some c => p.goto t (.loaded i c)
    | none => p
  | .loaded i c, .check => if c ∈ p.dead then p.goto t .idle else p.goto t (.building i c)
  | .idle, .scan i slot =>
    match p.shared slot with
    | some g => if ⟨slot, g⟩ ∈ p.dead then p else p.goto t (.building i ⟨slot, g⟩)
    | none => p
  | .idle, .probe i =>
    match p.cached i with
    | some c => p.goto t (.building i c)
    | none => p
  | .building i c, .store => (p.put i (some c)).goto t .idle
  | .building _ _, .leave => p.goto t .idle
  | _, .invalidate i => p.put i none
  | .idle, .retire slot =>
    match p.shared slot with
    | some g => { p with shared := update p.shared slot none }.goto t (.forget ⟨slot, g⟩ 0)
    | none => p
  | .forget c i, .look =>
    if i = maxUdpSlots then p.goto t .idle
    else if (p.cached i).map (·.slot) = some c.slot then p.goto t (.clear c i)
    else p.pass t c i
  | .clear c i, .clear => (p.put i none).pass t c i
  | _, _ => p

def next (ev : Nat × RetireAct) : EgressPool := p.step ev.1 (p.tasks ev.1) ev.2

/-- The connection was published and is no longer, so its retirement has begun. -/
abbrev Gone : Prop :=
  c.gen < p.gens c.slot ∧ p.shared c.slot ≠ some c.gen

/-- A refresh or a probe stores an entry for the connection when its retirement has begun. -/
def storesLate (p : EgressPool) (ev : Nat × RetireAct) : Bool :=
  match p.tasks ev.1, ev.2 with
  | .building _ c', .store => c' = c ∧ p.Gone c
  | _, _ => false

end

/-- What the walk has behind it holds the connection no more. -/
structure Swept (c : EgressConn) (p : EgressPool) : Prop where
  issued : ∀ s g, p.shared s = some g → g < p.gens s
  gone : 0 < p.swept c → p.Gone c
  passing : ∀ t i, p.tasks t = .forget c i ∨ p.tasks t = .clear c i → i ≤ p.swept c ∧ p.Gone c
  absent : ∀ i < p.swept c, p.cached i ≠ some c

variable {c : EgressConn} {p : EgressPool}

lemma Swept.goto (h : p.Swept c) {t : Nat} {place : RetirePlace}
    (hplace : ∀ i, place = .forget c i ∨ place = .clear c i → i ≤ p.swept c ∧ p.Gone c) :
    (p.goto t place).Swept c := by
  refine ⟨h.issued, h.gone, fun t' i ht' => ?_, h.absent⟩
  simp only [EgressPool.goto, update_apply] at ht'
  split at ht'
  · exact hplace i ht'
  · exact h.passing t' i ht'

lemma cached_put (i j : Nat) (e : Option EgressConn) :
    (p.put i e).cached j = if j = i then e else p.cached j := update_apply ..

lemma Swept.put (h : p.Swept c) {i : Nat} {e : Option EgressConn}
    (he : i < p.swept c → e ≠ some c) : (p.put i e).Swept c := by
  refine ⟨h.issued, h.gone, h.passing, fun j hj => ?_⟩
  rw [cached_put]
  split
  · rename_i hji
    exact he (hji ▸ hj)
  · exact h.absent j hj

lemma Swept.pass (h : p.Swept c) {t i : Nat} {c' : EgressConn}
    (hat : p.tasks t = .forget c' i ∨ p.tasks t = .clear c' i) (hfree : p.cached i ≠ some c') :
    (p.pass t c' i).Swept c := by
  unfold EgressPool.pass
  by_cases hc : c = c'
  · subst hc
    obtain ⟨hle, hgone⟩ := h.passing t i hat
    refine Swept.goto ?_ fun j hj => ⟨?_, hgone⟩
    · refine ⟨h.issued, fun _ => hgone, fun t' j hj => ⟨?_, hgone⟩, fun j hj => ?_⟩
      · simp only [update_self]
        exact Nat.le_trans (h.passing t' j hj).1 (Nat.le_max_left ..)
      · by_cases hji : j = i
        · exact hji ▸ hfree
        · refine h.absent j ?_
          simp only [update_self] at hj
          omega
    · simp only [RetirePlace.forget.injEq, reduceCtorEq, or_false] at hj
      simp only [← hj.2, update_self]
      exact Nat.le_max_right ..
  · refine Swept.goto ?_ fun j hj => ?_
    · refine ⟨h.issued, ?_, ?_, ?_⟩
      all_goals simp only [update_of_ne hc]
      · exact h.gone
      · exact h.passing
      · exact h.absent
    · simp only [RetirePlace.forget.injEq, reduceCtorEq, or_false] at hj
      exact absurd hj.1.symm hc

/-- A slot that is published or cleared gives no connection back. -/
lemma Swept.slot (h : p.Swept c) (slot n : Nat) (e : Option Nat) (hn : p.gens slot ≤ n)
    (he : ∀ g, e = some g → p.gens slot ≤ g ∧ g < n) :
    ({ p with
      shared := update p.shared slot e
      gens := update p.gens slot n } : EgressPool).Swept c := by
  have hgone (hg : p.Gone c) : c.gen < update p.gens slot n c.slot ∧
      update p.shared slot e c.slot ≠ some c.gen := by
    obtain ⟨hlt, hne⟩ := hg
    by_cases hs : c.slot = slot
    · rw [hs, update_self, update_self]
      rw [hs] at hlt
      exact ⟨by omega, fun heq => Nat.not_le.mpr hlt (he _ heq).1⟩
    · rw [update_of_ne hs, update_of_ne hs]
      exact ⟨hlt, hne⟩
  refine ⟨fun s g hg => ?_, fun hs => hgone (h.gone hs), fun t i hi => ?_, h.absent⟩
  · dsimp only at hg ⊢
    by_cases hs : s = slot
    · subst hs
      rw [update_self] at hg ⊢
      exact (he g hg).2
    · rw [update_of_ne hs] at hg ⊢
      exact h.issued s g hg
  · exact ⟨(h.passing t i hi).1, hgone (h.passing t i hi).2⟩

lemma Swept.next (h : p.Swept c) (ev : Nat × RetireAct) (hlate : storesLate c p ev = false) :
    (p.next ev).Swept c := by
  obtain ⟨t, act⟩ := ev
  unfold storesLate at hlate
  unfold EgressPool.next
  dsimp only at hlate ⊢
  generalize ht : p.tasks t = place at hlate
  unfold step
  split
  · rename_i slot
    exact h.slot slot _ _ (Nat.le_succ _) fun g hg => by simp_all
  · exact ⟨h.issued, h.gone, h.passing, h.absent⟩
  · split
    · exact h.goto (by simp)
    · exact h
  · split <;> exact h.goto (by simp)
  · split
    · split
      · exact h
      · exact h.goto (by simp)
    · exact h
  · split
    · exact h.goto (by simp)
    · exact h
  · rename_i i c' _
    refine Swept.goto (h.put fun hi heq => ?_) (by simp)
    have hgone := h.gone (Nat.zero_lt_of_lt hi)
    simp_all
  · exact h.goto (by simp)
  · exact h.put (by simp)
  · rename_i slot
    split
    · rename_i g hg
      have hcleared := h.slot slot _ none (Nat.le_refl _) (by simp)
      rw [update_eq_self] at hcleared
      refine hcleared.goto fun j hj => ?_
      simp only [RetirePlace.forget.injEq, reduceCtorEq, or_false] at hj
      obtain ⟨rfl, rfl⟩ := hj
      exact ⟨Nat.zero_le _, h.issued slot g hg, by simp⟩
    · exact h
  · rename_i c' i _
    split
    · exact h.goto (by simp)
    split
    · refine h.goto fun j hj => ?_
      simp only [RetirePlace.clear.injEq, reduceCtorEq, false_or] at hj
      rw [hj.1, hj.2] at ht
      exact h.passing t j (.inl ht)
    · rename_i hslot
      refine h.pass (.inl ht) fun heq => hslot ?_
      rw [heq]
      rfl
  · rename_i c' i _
    refine Swept.pass (h.put (by simp)) (.inr ht) ?_
    simp [EgressPool.put]
  · exact h

lemma cached_next (ev : Nat × RetireAct) (hlate : storesLate c p ev = false) (hgone : p.Gone c)
    (i : Nat) (hi : p.cached i ≠ some c) : (p.next ev).cached i ≠ some c := by
  obtain ⟨t, act⟩ := ev
  unfold storesLate at hlate
  unfold EgressPool.next
  dsimp only at hlate ⊢
  generalize p.tasks t = place at hlate
  unfold step
  split
  case h_7 j c' =>
    change (p.put j (some c')).cached i ≠ some c
    grind [cached_put]
  case h_12 c' j =>
    change (p.put j none).cached i ≠ some c
    grind [cached_put]
  all_goals grind [EgressPool.goto, EgressPool.pass, cached_put]

/-- If no entry for a connection is stored late, then it replaces no other entry once its
retirement has begun, and no binding holds it once the walk is done. -/
theorem retired_leaves_cache (c : EgressConn) (es : List (Nat × RetireAct))
    (hlate : Along next (fun p ev => storesLate c p ev = false) new es) :
    Along next (fun p ev => p.Gone c → ∀ i, p.cached i ≠ some c → (p.next ev).cached i ≠ some c)
      new es ∧
    ((after next new es).swept c = maxUdpSlots →
      ∀ i < maxUdpSlots, (after next new es).cached i ≠ some c) := by
  have hnew : new.Swept c := ⟨nofun, nofun, nofun, nofun⟩
  have hstep (p : EgressPool) (ev) (h : p.Swept c) (hev : storesLate c p ev = false) :
      (p.Gone c → ∀ i, p.cached i ≠ some c → (p.next ev).cached i ≠ some c) ∧ (p.next ev).Swept c :=
    ⟨cached_next ev hev, h.next ev hev⟩
  refine ⟨Along.of_invariant hstep hnew hlate, fun hdone i hi => ?_⟩
  have hswept : (after next new es).Swept c :=
    after_of_invariant (fun p ev h hev => (hstep p ev h hev).2) hnew hlate
  exact hswept.absent i (hdone ▸ hi)

/-- A refresh loads the entry of a live connection; the connection dies and is retired, with the
walk over all bindings; the refresh stores its entry. -/
def lateRefresh : List (Nat × RetireAct) :=
  [(0, .dial 0), (0, .scan 0 0), (0, .store), (0, .load 0), (0, .check), (0, .die ⟨0, 0⟩),
    (1, .retire 0), (1, .look), (1, .clear)] ++ List.replicate 16 (1, .look) ++ [(0, .store)]

theorem retired_stored_again :
    let p := after next new lateRefresh
    p.swept ⟨0, 0⟩ = maxUdpSlots ∧ p.tasks 0 = .idle ∧ p.tasks 1 = .idle ∧
    p.cached 0 = some ⟨0, 0⟩ := by
  decide

theorem retired_leaves_cache_idle :
    let es := lateRefresh.take 3 ++ (lateRefresh.drop 5).dropLast
    (after next new es).swept ⟨0, 0⟩ = maxUdpSlots ∧ (after next new es).cached 0 ≠ some ⟨0, 0⟩ :=
  ⟨by decide, (retired_leaves_cache _ _ (by decide)).2 (by decide) 0 (by decide)⟩

end EgressPool

end MyQuic2
