import MyQuic2.Server.GateFollowers

/-!
# The newest lookup of a name

The gate answers for the newest claim of a name. A claim that ran into its deadline
may be followed by a newer one and finish after it. Without a verdict such a finish
does no harm. With one it refuses the name while the newer lookup is running, and
after that one has found an address.
-/

namespace MyQuic2

open List Option Bool Function GateEntry DnsGate

/-- What became of a claim. -/
inductive ClaimStatus where
  | inFlight
  | cleared
  | refused
  deriving DecidableEq

/-- The status that an entry stands for. -/
def GateState.status : GateState → ClaimStatus
  | inFlight => .inFlight
  | unusable => .refused

/-- The newest claim of every key. -/
abbrev NewestClaims := UInt64 → Option (UInt32 × ClaimStatus)

/-- A claim finishes. One that is not the newest of its key is forgotten. -/
def NewestClaims.record (newest : NewestClaims) (key : UInt64) (generation : UInt32)
    (unusable : Option Nat) : NewestClaims :=
  if (newest key).map (·.1) = some generation then
    Function.update newest key (some (generation, if unusable.isSome then .refused else .cleared))
  else newest

section

variable {α : Type} {R : α → α → Prop}

lemma pairwise_set {l : List α} {i : Nat} {a : α} (h : l.Pairwise R)
    (hbefore : ∀ j < i, ∀ b, l[j]? = some b → R b a)
    (hbehind : ∀ j, i < j → ∀ b, l[j]? = some b → R a b) : (l.set i a).Pairwise R := by
  rw [pairwise_iff_getElem] at h ⊢
  intro m n hm hn hmn
  rw [length_set] at hm hn
  rw [getElem_set, getElem_set]
  split
  · rename_i him
    rw [if_neg (by omega)]
    exact hbehind n (by omega) _ (getElem?_eq_getElem hn)
  split
  · next hin => exact hbefore m (by omega) _ (getElem?_eq_getElem hm)
  · exact h m n hm hn hmn

end

/-- Of two entries of a key, in the order of the slots, the later one is past its deadline, or the
earlier one is and belongs to another claim. -/
def GateEntry.Apart (clock : Nat) (x y : GateEntry) : Prop :=
  x.key = y.key → y.deadline ≤ clock ∨ x.deadline ≤ clock ∧ x.generation ≠ y.generation

/-- The relation for slots, of which some are free. -/
def SlotsApart (clock : Nat) (a b : Option GateEntry) : Prop :=
  ∀ x ∈ a, ∀ y ∈ b, x.Apart clock y

namespace DnsGate

section

variable (g : DnsGate) (key : UInt64) (generation : UInt32)

/-- The gate without its followers. -/
def bare : DnsGate :=
  { g with entries := g.entries.map (Option.map dropParked) }

lemma bare_clearFollowers : (g.clearFollowers key generation).bare = g.bare := by
  unfold bare clearFollowers
  rw [List.map_map]
  congr 1
  refine List.map_congr_left fun slot _ => ?_
  cases slot with
  | none => rfl
  | some e =>
    dsimp only [comp_apply, map_some]
    split <;> rfl

lemma bare_updateFirst {p : Option GateEntry → Bool} {f : GateEntry → GateEntry}
    (hf : ∀ e, (f e).dropParked = e.dropParked) (l : List (Option GateEntry)) :
    (updateFirst p (Option.map f) l).map (Option.map dropParked) =
      l.map (Option.map dropParked) := by
  induction l with
  | nil => rfl
  | cons slot l ih =>
    rw [updateFirst]
    split
    · rw [map_cons, map_cons]
      cases slot with
      | none => rfl
      | some e => rw [map_some, map_some, map_some, hf e]
    · rw [map_cons, map_cons, ih]

lemma bare_park (nowMs : Nat) (payload : Bytes) : (g.park key nowMs payload).2.bare = g.bare := by
  unfold park
  split
  · rfl
  split
  · rfl
  · refine congrArg (fun l => ({ g with entries := l } : DnsGate)) (bare_updateFirst ?_ g.entries)
    exact fun _ => rfl

lemma bare_takeParked : (g.takeParked key generation).2.bare = g.bare := by
  unfold takeParked
  split
  · rfl
  · refine congrArg (fun l => ({ g with entries := l } : DnsGate)) (bare_updateFirst ?_ g.entries)
    exact fun _ => rfl

end

/-- At most one entry of a key is before its deadline; it is the newest claim's and shows its
status. The hint repeats an entry. -/
structure Follows (g : DnsGate) (clock : Nat) (newest : NewestClaims) : Prop where
  slots : g.entries.length = dnsGateSlots
  apart : g.entries.Pairwise (SlotsApart clock)
  ofNewest : g.Each fun e =>
    clock < e.deadline → newest e.key = some (e.generation, e.state.status)
  hint : g.hotKey ≠ 0 → ∃ e, some e ∈ g.entries ∧ e.key = g.hotKey ∧
    g.hotState = some e.state ∧ g.hotDeadline = e.deadline

namespace Follows

variable {g : DnsGate} {clock : Nat} {newest : NewestClaims} {key : UInt64} {generation : UInt32}

lemma start : new.Follows 0 fun _ => none where
  slots := rfl
  apart := pairwise_replicate.mpr (.inr fun _ hx => nomatch hx)
  ofNewest := Each.new
  hint := fun hne => absurd rfl hne

variable {nowMs i : Nat}

section

variable (h : g.Follows clock newest)
include h

lemma later (hle : clock ≤ nowMs) : g.Follows nowMs newest where
  slots := h.slots
  apart := by
    refine h.apart.imp fun {a b} hab x hx y hy hkey => ?_
    rcases hab x hx y hy hkey with hdead | ⟨hdead, hne⟩
    · exact .inl (hdead.trans hle)
    · exact .inr ⟨hdead.trans hle, hne⟩
  ofNewest := fun e he hlive => h.ofNewest e he (hle.trans_lt hlive)
  hint := h.hint

/-- Followers do not matter. -/
lemma of_bare {g' : DnsGate} (hbare : g'.bare = g.bare) : g'.Follows clock newest := by
  have hentries : g'.entries.map (Option.map dropParked) =
      g.entries.map (Option.map dropParked) := congrArg entries hbare
  have hback : ∀ e', some e' ∈ g'.entries → ∃ e, some e ∈ g.entries ∧ e.dropParked =
      e'.dropParked := by
    intro e' he'
    have hmem : some e'.dropParked ∈ g.entries.map (Option.map dropParked) :=
      hentries ▸ mem_map.mpr ⟨some e', he', rfl⟩
    obtain ⟨slot, hslot, heq⟩ := mem_map.mp hmem
    obtain ⟨e, rfl, hdrop⟩ := map_eq_some_iff.mp heq
    exact ⟨e, hslot, hdrop⟩
  have hforth : ∀ e, some e ∈ g.entries → ∃ e', some e' ∈ g'.entries ∧ e'.dropParked =
      e.dropParked := by
    intro e he
    have hmem : some e.dropParked ∈ g'.entries.map (Option.map dropParked) :=
      hentries.symm ▸ mem_map.mpr ⟨some e, he, rfl⟩
    obtain ⟨slot, hslot, heq⟩ := mem_map.mp hmem
    obtain ⟨e', rfl, hdrop⟩ := map_eq_some_iff.mp heq
    exact ⟨e', hslot, hdrop⟩
  have hpair : ∀ l : List (Option GateEntry),
      (l.map (Option.map dropParked)).Pairwise (SlotsApart clock) ↔
        l.Pairwise (SlotsApart clock) := by
    intro l
    rw [pairwise_map]
    refine Iff.of_eq (congrArg (fun R => List.Pairwise R l) ?_)
    funext a b
    cases a <;> cases b <;> simp [SlotsApart, GateEntry.Apart, dropParked]
  refine ⟨?_, ?_, ?_, ?_⟩
  · have hlength := congrArg List.length hentries
    rw [length_map, length_map] at hlength
    exact hlength.trans h.slots
  · rw [← hpair, hentries, hpair]
    exact h.apart
  · intro e' he' hlive
    obtain ⟨e, he, hdrop⟩ := hback e' he'
    have hfields := GateEntry.mk.inj hdrop
    rw [← hfields.1, ← hfields.2.1, ← hfields.2.2.2.1]
    exact h.ofNewest e he (hfields.2.2.1 ▸ hlive)
  intro hne
  have hkey : g'.hotKey = g.hotKey := show g'.bare.hotKey = g.bare.hotKey from congrArg hotKey hbare
  obtain ⟨e, he, hsame, hstate, hdeadline⟩ := h.hint (hkey ▸ hne)
  obtain ⟨e', he', hdrop⟩ := hforth e he
  have hfields := GateEntry.mk.inj hdrop
  refine ⟨e', he', ?_, ?_, ?_⟩
  · rw [hfields.1, hsame, hkey]
  · rw [hfields.2.1, ← hstate]
    exact show g'.bare.hotState = g.bare.hotState from congrArg hotState hbare
  · rw [hfields.2.2.1, ← hdeadline]
    exact show g'.bare.hotDeadline = g.bare.hotDeadline from congrArg hotDeadline hbare

/-- A finish whose claim has no entry before its deadline. -/
lemma record (key : UInt64) (generation : UInt32) (unusable : Option Nat)
    (hnone : g.Each fun e => clock < e.deadline → e.key = key → e.generation ≠ generation) :
    g.Follows clock (newest.record key generation unusable) := by
  refine { h with ofNewest := fun e he hlive => ?_ }
  have hold := h.ofNewest e he hlive
  unfold NewestClaims.record
  split
  · rename_i hsame
    by_cases hkey : e.key = key
    · rw [hkey] at hold
      rw [hold, map_some, some.injEq] at hsame
      exact absurd hsame (hnone e he hlive hkey)
    · rw [update_of_ne hkey]
      exact hold
  · exact hold

lemma write (hi : i < dnsGateSlots) {e : GateEntry}
    (hdead : ∀ j, j ≠ i → ∀ x, g.entries[j]? = some (some x) → x.key = e.key →
      x.deadline ≤ clock ∧ (j < i → x.generation ≠ e.generation)) :
    (({ g with entries := g.entries.set i (some e) }).publishHot e.key e.state e.deadline).Follows
      clock (Function.update newest e.key (some (e.generation, e.state.status))) := by
  refine ⟨?_, ?_, ?_, ?_⟩
  · exact (length_set ..).trans h.slots
  · refine pairwise_set h.apart ?_ ?_
    · intro j hj b hb x hx y hy hkey
      obtain rfl := some.inj hy
      obtain ⟨hpast, hne⟩ := hdead j (by omega) x (hb.trans (congrArg some hx)) hkey
      exact .inr ⟨hpast, hne hj⟩
    · intro j hj b hb x hx y hy hkey
      obtain rfl := some.inj hx
      exact .inl (hdead j (by omega) y (hb.trans (congrArg some hy)) hkey.symm).1
  · intro e' he' hlive
    obtain ⟨j, hj, hget⟩ := mem_iff_getElem.mp he'
    have hget? : (g.entries.set i (some e))[j]? = some (some e') := by
      rw [← hget]
      exact getElem?_eq_getElem hj
    rw [getElem?_set] at hget?
    split at hget?
    · split at hget?
      · obtain rfl := some.inj (some.inj hget?)
        rw [update_self]
      · cases hget?
    rename_i hne
    by_cases hkey : e'.key = e.key
    · have hpast := (hdead j (fun heq => hne heq.symm) e' hget? hkey).1
      exact absurd hlive (by omega)
    · rw [update_of_ne hkey]
      exact h.ofNewest e' (mem_of_getElem? hget?) hlive
  · intro _
    refine ⟨e, ?_, rfl, rfl, rfl⟩
    exact mem_set (h.slots.symm ▸ hi) _

/-- Every other slot of the key is past its deadline if the first one of the newest claim is. -/
lemma others_dead {st : ClaimStatus} (hnewest : newest key = some (generation, st))
    (hown : g.entries.findIdx? (fun slot => slot.any (isFor key generation)) = some i) {j : Nat}
    (hj : j ≠ i) {x : GateEntry} (hx : g.entries[j]? = some (some x)) (hkey : x.key = key) :
    x.deadline ≤ clock ∧ (j < i → x.generation ≠ generation) := by
  obtain ⟨hi, hany, hbefore⟩ := List.findIdx?_eq_some_iff_getElem.mp hown
  obtain ⟨hjlt, hget⟩ := List.getElem?_eq_some_iff.mp hx
  have hearlier : j < i → x.generation ≠ generation := by
    intro hlt hgen
    have hnot := hbefore j hlt
    rw [hget] at hnot
    exact hnot (by simp [isFor, hkey, hgen])
  refine ⟨?_, hearlier⟩
  by_contra hlive
  have hof := h.ofNewest x (mem_of_getElem? hx) (by omega)
  rw [hkey, hnewest, some.injEq, Prod.mk.injEq] at hof
  have hlater : i < j := by
    rcases Nat.lt_or_gt_of_ne hj with hlt | hgt
    · exact absurd hof.1.symm (hearlier hlt)
    · exact hgt
  -- The first slot of the claim stands before this one and is of the same claim.
  cases hslot : g.entries[i] with
  | none => rw [hslot] at hany; cases hany
  | some e =>
    rw [hslot] at hany
    have hfor : e.key = key ∧ e.generation = generation := by
      simpa [isFor] using hany
    have hapart := pairwise_iff_getElem.mp h.apart i j hi hjlt hlater e hslot x hget
      (hfor.1.trans hkey.symm)
    rcases hapart with hdead | ⟨-, hne⟩
    · exact hlive hdead
    · exact hne (hfor.2.trans hof.1)

end

/-- A free slot stands behind no entry past its deadline. -/
lemma lt_of_freeSlot (hfree : g.freeSlot nowMs = some i) :
    i < g.entries.length ∧ ∀ j < i, ∀ x, g.entries[j]? = some (some x) → nowMs < x.deadline := by
  obtain ⟨hi, -, hbefore⟩ := findIdx?_eq_some_iff_getElem.mp hfree
  refine ⟨hi, fun j hj x hx => ?_⟩
  obtain ⟨hjlt, hget⟩ := List.getElem?_eq_some_iff.mp hx
  have hnot := hbefore j hj
  rw [hget, Option.all_some, decide_eq_true_eq] at hnot
  omega

/-- A key without an entry before its deadline takes a free slot, or any other if there is none. -/
lemma slot_dead (hnone : g.Each fun e => e.key = key → e.deadline ≤ clock)
    (generation : UInt32) (turn : Nat) {j : Nat} {x : GateEntry}
    (hx : g.entries[j]? = some (some x)) (hkey : x.key = key) :
    x.deadline ≤ clock ∧ (j < (g.freeSlot clock).getD turn → x.generation ≠ generation) := by
  have hdead := hnone x (mem_of_getElem? hx) hkey
  refine ⟨hdead, fun hlt => ?_⟩
  cases hfree : g.freeSlot clock with
  | some i =>
    rw [hfree, getD_some] at hlt
    have hlive := (lt_of_freeSlot hfree).2 j hlt x hx
    omega
  | none =>
    have hslot := findIdx?_eq_none_iff.mp hfree (some x) (mem_of_getElem? hx)
    rw [all_some, decide_eq_false_iff_not] at hslot
    exact absurd hdead hslot

lemma freeSlot_lt (h : g.Follows clock newest) (turn : Nat) :
    (g.freeSlot nowMs).getD (turn % dnsGateSlots) < dnsGateSlots := by
  cases hfree : g.freeSlot nowMs with
  | some i => exact h.slots ▸ (lt_of_freeSlot hfree).1
  | none => exact Nat.mod_lt _ (by decide)

lemma dead_of_hit_none (hhit : g.hit key nowMs = none) :
    g.Each fun e => e.key = key → e.deadline ≤ nowMs := by
  intro e he hkey
  by_contra hlive
  unfold hit at hhit
  cases hopen : g.live.find? (isOpen key nowMs) with
  | some e' => rw [hopen] at hhit; cases hhit
  | none =>
    rw [hopen] at hhit
    have hnot := find?_eq_none.mp hhit e (mem_live.mpr he)
    exact hnot (by simpa [hkey] using Nat.lt_of_not_le hlive)

lemma mem_of_hit {e : GateEntry} (hhit : g.hit key nowMs = some e) :
    some e ∈ g.entries ∧ e.key = key ∧ nowMs < e.deadline := by
  unfold hit at hhit
  cases hopen : g.live.find? (isOpen key nowMs) with
  | some e' =>
    rw [hopen] at hhit
    obtain rfl := some.inj hhit
    have htest := find?_some hopen
    simp only [isOpen, and_eq_true, decide_eq_true_eq] at htest
    exact ⟨mem_live.mp (mem_of_find?_eq_some hopen), htest.1.1, htest.2⟩
  | none =>
    rw [hopen] at hhit
    have htest := find?_some hhit
    simp only [and_eq_true, decide_eq_true_eq] at htest
    exact ⟨mem_live.mp (mem_of_find?_eq_some hhit), htest.1, htest.2⟩

section

variable (h : g.Follows clock newest)
include h

lemma claim_answer :
    (∃ generation, (g.claim key clock).1 = .proceed generation ∧ g.hotVerdict key clock = none ∧
        g.hit key clock = none) ∨
      ∃ e, some e ∈ g.entries ∧ e.key = key ∧ clock < e.deadline ∧
        (g.claim key clock).1 = (if e.state = .inFlight then .inFlight else .unusable) := by
  unfold claim
  cases hhot : g.hotVerdict key clock with
  | some st =>
    right
    unfold hotVerdict at hhot
    split at hhot
    · rename_i hcond
      simp only [ne_eq, decide_not, Bool.and_eq_true, Bool.not_eq_eq_eq_not, Bool.not_true,
        decide_eq_false_iff_not, decide_eq_true_eq] at hcond
      obtain ⟨⟨hne, hkey⟩, hlive⟩ := hcond
      obtain ⟨e, he, hsame, hstate, hdeadline⟩ := h.hint (hkey ▸ hne)
      have hst : st = e.state := some.inj (hhot.symm.trans hstate)
      refine ⟨e, he, hsame.trans hkey, hdeadline ▸ hlive, ?_⟩
      subst hst
      cases e.state <;> rfl
    · cases hhot
  | none =>
    cases hhit : g.hit key clock with
    | none => exact .inl ⟨_, rfl, rfl, rfl⟩
    | some e =>
      obtain ⟨hmem, hkey, hlive⟩ := mem_of_hit hhit
      exact .inr ⟨e, hmem, hkey, hlive, rfl⟩

lemma open_le_one : (g.live.filter (isOpen key clock)).length ≤ 1 := by
  have hlive : g.live.Pairwise (GateEntry.Apart clock) := pairwise_filterMap.mpr h.apart
  have hopen := hlive.filter (isOpen key clock)
  have htest : ∀ e ∈ g.live.filter (isOpen key clock), e.key = key ∧ clock < e.deadline := by
    intro e he
    have hpass := (mem_filter.mp he).2
    simp only [isOpen, and_eq_true, decide_eq_true_eq] at hpass
    exact ⟨hpass.1.1, hpass.2⟩
  cases hlist : g.live.filter (isOpen key clock) with
  | nil => exact Nat.zero_le 1
  | cons x l =>
    cases l with
    | nil => exact le_rfl
    | cons y l =>
      rw [hlist] at hopen htest
      have hx := htest x (mem_cons_self ..)
      have hy := htest y (mem_cons_of_mem x (mem_cons_self ..))
      have hapart := rel_of_pairwise_cons hopen (mem_cons_self ..) (hx.1.trans hy.1.symm)
      omega

/-- While a claim is in flight, the gate says so. -/
lemma claim_of_open (hopen : ∃ e ∈ g.live, e.isOpen key clock = true) :
    (g.claim key clock).1 = .inFlight := by
  obtain ⟨e, he, hpass⟩ := hopen
  simp only [isOpen, and_eq_true, decide_eq_true_eq] at hpass
  obtain ⟨⟨hkey, hstate⟩, hlive⟩ := hpass
  rcases h.claim_answer with ⟨_, -, -, hhit⟩ | ⟨e', he', hkey', hlive', hanswer⟩
  · have hdead := dead_of_hit_none hhit e (mem_live.mp he) hkey
    omega
  -- Both entries show the status of the newest claim.
  have hnew := h.ofNewest e (mem_live.mp he) hlive
  have hnew' := h.ofNewest e' he' hlive'
  rw [hkey'] at hnew'
  rw [hkey, hnew', hstate, some.injEq, Prod.mk.injEq] at hnew
  have hstate' : e'.state = .inFlight := by
    cases hst : e'.state with
    | inFlight => rfl
    | unusable => rw [hst] at hnew; cases hnew.2
  rw [hanswer, if_pos hstate']

lemma claim_of_cleared (hcleared : newest key = some (generation, .cleared)) :
    ∃ generation', (g.claim key clock).1 = .proceed generation' := by
  rcases h.claim_answer with ⟨generation', hproceed, -, -⟩ | ⟨e, he, hkey, hlive, -⟩
  · exact ⟨generation', hproceed⟩
  have hnew := h.ofNewest e he hlive
  rw [hkey, hcleared, some.injEq, Prod.mk.injEq] at hnew
  cases hst : e.state with
  | inFlight | unusable => rw [hst] at hnew; cases hnew.2

lemma refused_of_unusable (hunusable : (g.claim key clock).1 = .unusable) :
    ∃ generation, newest key = some (generation, .refused) := by
  rcases h.claim_answer with ⟨_, hproceed, -, -⟩ | ⟨e, he, hkey, hlive, hanswer⟩
  · rw [hproceed] at hunusable
    cases hunusable
  have hnew := h.ofNewest e he hlive
  rw [hkey] at hnew
  cases hst : e.state with
  | inFlight =>
    rw [hunusable, if_pos hst] at hanswer
    cases hanswer
  | unusable =>
    rw [hst] at hnew
    exact ⟨e.generation, hnew⟩

end

variable (h : g.Follows clock newest)
include h

lemma claim :
    (g.claim key clock).2.Follows clock
      (match (g.claim key clock).1 with
        | .proceed generation => Function.update newest key (some (generation, .inFlight))
        | _ => newest) := by
  unfold DnsGate.claim
  cases hhot : g.hotVerdict key clock with
  | some st => cases st <;> exact h
  | none =>
    cases hhit : g.hit key clock with
    | some e =>
      -- The hint is renewed from the entry that was hit.
      have hrenew : (g.publishHot key e.state e.deadline).Follows clock newest := by
        refine { h with hint := fun _ => ?_ }
        obtain ⟨hmem, hkey, -⟩ := mem_of_hit hhit
        exact ⟨e, hmem, hkey, rfl, rfl⟩
      dsimp only
      by_cases hst : e.state = .inFlight
      · rw [if_pos hst]
        exact hrenew
      · rw [if_neg hst]
        exact hrenew
    | none =>
      have hnone := dead_of_hit_none hhit
      have hnumbered : ({ g with nextGeneration := g.nextGeneration + 1 } : DnsGate).Follows
          clock newest := ⟨h.slots, h.apart, h.ofNewest, h.hint⟩
      let e : GateEntry :=
        ⟨key, .inFlight, saturatingAdd clock dnsGateInflightTtlMs, g.nextGeneration, [], 0⟩
      exact hnumbered.write (freeSlot_lt h g.nextGeneration.toNat) (e := e)
        fun j _ x hx hkey => slot_dead hnone _ _ hx hkey

lemma refuse {st : ClaimStatus} (hnewest : newest key = some (generation, st))
    (hi : i < dnsGateSlots) (hdead : ∀ j, j ≠ i → ∀ x, g.entries[j]? = some (some x) → x.key = key →
      x.deadline ≤ clock ∧ (j < i → x.generation ≠ generation)) (deadline ttl : Nat) :
    (g.refuse i key generation deadline).Follows clock
      (newest.record key generation (some ttl)) := by
  have hrecord : newest.record key generation (some ttl) =
      Function.update newest key (some (generation, .refused)) := by
    unfold NewestClaims.record
    rw [hnewest, map_some, if_pos rfl]
    rfl
  rw [hrecord]
  exact h.write hi (e := ⟨key, .unusable, deadline, generation, [], 0⟩) hdead

/-- The entry of a claim that finished without a verdict goes. -/
lemma clear
    (hown : g.entries.findIdx? (fun slot => slot.any (isFor key generation)) = some i) :
    (({ g with entries := g.entries.set i none }).clearHot).Follows clock
      (newest.record key generation none) := by
  have hremoved : (({ g with entries := g.entries.set i none }).clearHot).Follows clock newest := by
    refine ⟨(length_set ..).trans h.slots, ?_, ?_, fun hne => absurd rfl hne⟩
    · refine pairwise_set h.apart ?_ ?_
      · rintro j _ b _ x _ y ⟨⟩
      · rintro j _ b _ x ⟨⟩
    · intro e he
      rcases mem_or_eq_of_mem_set he with hold | hnone
      · exact h.ofNewest e hold
      · cases hnone
  refine hremoved.record key generation none fun e he hlive hkey hgen => ?_
  -- A second entry of the claim would be behind the first one, and past its deadline.
  have hnewest := hremoved.ofNewest e he hlive
  rw [hkey, hgen] at hnewest
  obtain ⟨j, hj, hget⟩ := mem_iff_getElem.mp he
  have hget? : (g.entries.set i none)[j]? = some (some e) := by
    rw [← hget]
    exact getElem?_eq_getElem hj
  have hji : j ≠ i := by
    rintro rfl
    rw [getElem?_set_self'] at hget?
    obtain ⟨x, -, hx⟩ := map_eq_some_iff.mp hget?
    cases hx
  rw [getElem?_set_ne hji.symm] at hget?
  have hdead := (others_dead h hnewest hown hji hget? hkey).1
  omega

/-- A finish keeps to the newest claim, if a verdict comes from it. -/
lemma finish {unusable : Option Nat}
    (hfrom : unusable.isSome → ∃ st, newest key = some (generation, st)) :
    (g.finish key generation unusable clock).2.Follows clock
      (newest.record key generation unusable) := by
  have hclear : (g.clearFollowers key generation).Follows clock newest :=
    h.of_bare (bare_clearFollowers g key generation)
  unfold DnsGate.finish
  dsimp only
  generalize g.clearFollowers key generation = g at hclear
  cases hown : g.entries.findIdx? fun slot => slot.any (isFor key generation) with
  | some i =>
    cases unusable with
    | some ttl =>
      obtain ⟨st, hnewest⟩ := hfrom rfl
      obtain ⟨hi, -, -⟩ := findIdx?_eq_some_iff_getElem.mp hown
      exact hclear.refuse hnewest (hclear.slots ▸ hi)
        (fun j hj x hx hkey => others_dead hclear hnewest hown hj hx hkey) _ ttl
    | none => exact hclear.clear hown
  | none =>
    have hgone : g.Each fun e => e.key = key → e.generation ≠ generation := by
      intro e he hkey hgen
      have hnot := findIdx?_eq_none_iff.mp hown (some e) he
      rw [any_some] at hnot
      simp [isFor, hkey, hgen] at hnot
    have hrecord := hclear.record key generation unusable fun e he _ => hgone e he
    cases unusable with
    | none =>
      dsimp only
      split
      · exact hrecord
      · exact ⟨hrecord.slots, hrecord.apart, hrecord.ofNewest, fun hne => absurd rfl hne⟩
    | some ttl =>
      dsimp only
      split
      · exact hrecord
      cases hfree : g.freeSlot clock with
      | none => exact hrecord
      | some i =>
        obtain ⟨st, hnewest⟩ := hfrom rfl
        have hnone : g.Each fun e => e.key = key → e.deadline ≤ clock := by
          intro e he hkey
          by_contra hlive
          have hof := hclear.ofNewest e he (by omega)
          rw [hkey, hnewest, some.injEq, Prod.mk.injEq] at hof
          exact hgone e he hkey hof.1.symm
        refine hclear.refuse hnewest (hclear.slots ▸ (lt_of_freeSlot hfree).1)
          (fun j _ x hx hkey => ?_) _ ttl
        have hslot := slot_dead hnone generation i hx hkey
        rw [hfree] at hslot
        exact hslot

end Follows

end DnsGate

/-- A gate, its clock and the newest claims. -/
structure VerdictRun where
  gate : DnsGate
  clock : Nat
  newest : NewestClaims

namespace VerdictRun

def start : VerdictRun := ⟨.new, 0, fun _ => none⟩

def next (s : VerdictRun) : GateCall → VerdictRun
  | .claim key nowMs =>
    let r := s.gate.claim key nowMs
    { gate := r.2
      clock := nowMs
      newest :=
        match r.1 with
        | .proceed generation => Function.update s.newest key (some (generation, .inFlight))
        | _ => s.newest }
  | .park key nowMs payload =>
    { s with
      gate := (s.gate.park key nowMs payload).2
      clock := nowMs }
  | .takeParked key generation => { s with gate := (s.gate.takeParked key generation).2 }
  | .finish key generation unusable nowMs =>
    { gate := (s.gate.finish key generation unusable nowMs).2
      clock := nowMs
      newest := s.newest.record key generation unusable }

/-- The clock does not go back. -/
def Ticks (s : VerdictRun) : GateCall → Prop
  | .claim _ nowMs => s.clock ≤ nowMs
  | .park _ nowMs _ => s.clock ≤ nowMs
  | .takeParked _ _ => True
  | .finish _ _ _ nowMs => s.clock ≤ nowMs

/-- A verdict against a name comes from the newest claim of the name, and not after the claim has
finished without one. -/
def FromNewest (s : VerdictRun) : GateCall → Prop
  | .finish key generation (some _) _ =>
    s.newest key = some (generation, .inFlight) ∨ s.newest key = some (generation, .refused)
  | _ => True

instance (s : VerdictRun) (call : GateCall) : Decidable (s.Ticks call) := by
  cases call <;> unfold Ticks <;> infer_instance

instance (s : VerdictRun) : ∀ call, Decidable (s.FromNewest call)
  | .claim _ _ => .isTrue trivial
  | .park _ _ _ => .isTrue trivial
  | .takeParked _ _ => .isTrue trivial
  | .finish _ _ none _ => .isTrue trivial
  | .finish _ _ (some _) _ => inferInstanceAs (Decidable (_ ∨ _))

lemma follows_next {s : VerdictRun} (h : s.gate.Follows s.clock s.newest) {call : GateCall}
    (hticks : s.Ticks call) (hfrom : s.FromNewest call) :
    (s.next call).gate.Follows (s.next call).clock (s.next call).newest := by
  cases call with
  | claim key nowMs => exact (h.later hticks).claim
  | park key nowMs payload => exact (h.later hticks).of_bare (bare_park ..)
  | takeParked key generation => exact h.of_bare (bare_takeParked ..)
  | finish key generation unusable nowMs =>
    refine (h.later hticks).finish fun hsome => ?_
    cases unusable with
    | none => cases hsome
    | some ttl => exact hfrom.elim (fun h => ⟨_, h⟩) fun h => ⟨_, h⟩

lemma follows_after (calls : List GateCall) (hticks : Along next Ticks start calls)
    (hfrom : Along next FromNewest start calls) :
    (after next start calls).gate.Follows (after next start calls).clock
      (after next start calls).newest := by
  have hstep : ∀ (s : VerdictRun) call, s.gate.Follows s.clock s.newest →
      s.Ticks call ∧ s.FromNewest call →
        (s.next call).gate.Follows (s.next call).clock (s.next call).newest :=
    fun s call h hcall => follows_next h hcall.1 hcall.2
  exact @after_of_invariant _ _ next (fun s => s.gate.Follows s.clock s.newest) _ hstep _ calls
    DnsGate.Follows.start (hticks.and hfrom)

/-- At most one claim of a key is in flight, and while it is, the gate says so. A name whose newest
claim finished without a verdict is looked up again, and a name is refused only for a verdict of its
newest claim. -/
theorem verdict_follows_newest (calls : List GateCall) (hticks : Along next Ticks start calls)
    (hfrom : Along next FromNewest start calls) :
    let s := after next start calls
    ∀ key nowMs, s.clock ≤ nowMs →
      (s.gate.live.filter (isOpen key nowMs)).length ≤ 1 ∧
      ((∃ e ∈ s.gate.live, e.isOpen key nowMs = true) → (s.gate.claim key nowMs).1 = .inFlight) ∧
      (∀ generation, s.newest key = some (generation, .cleared) →
        ∃ generation', (s.gate.claim key nowMs).1 = .proceed generation') ∧
      ((s.gate.claim key nowMs).1 = .unusable →
        ∃ generation, s.newest key = some (generation, .refused)) := by
  intro s key nowMs hle
  have h : s.gate.Follows nowMs s.newest := (follows_after calls hticks hfrom).later hle
  exact ⟨h.open_le_one, h.claim_of_open, fun _ hcleared => h.claim_of_cleared hcleared,
    h.refused_of_unusable⟩

/-- A name is claimed again past the deadline of its first claim, in another slot, and then the
first claim finishes with a verdict. -/
def overtaken : List GateCall :=
  [.claim 2 0, .claim 1 0, .finish 2 0 none 1, .claim 1 15000, .finish 1 1 (some 60000) 15001]

/-- The newest lookup is in flight and the gate refuses the name, also once that lookup has
finished without a verdict. -/
theorem old_verdict_shadows_lookup :
    let s := after next start overtaken
    (∃ e ∈ s.gate.live, e.isOpen 1 15002 = true) ∧ (s.gate.claim 1 15002).1 = .unusable ∧
      let t := s.next (.finish 1 2 none 15003)
      t.newest 1 = some (2, .cleared) ∧ (t.gate.claim 1 15004).1 = .unusable := by
  decide +kernel

/-- The same finish without a verdict. -/
theorem verdict_follows_newest_overtaken :
    let calls := overtaken.take 4 ++ [.finish 1 1 none 15001]
    let s := after next start calls
    (s.gate.claim 1 15002).1 = .inFlight :=
  (verdict_follows_newest (overtaken.take 4 ++ [.finish 1 1 none 15001]) (by decide +kernel)
    (by decide +kernel) 1 15002 (by decide +kernel)).2.1 (by decide +kernel)

end VerdictRun

end MyQuic2
