import Mathlib.Data.Finset.Card
import MyQuic2.Core.Run

/-!
# The cached session count

The fair-share gate of a connection asks how many sessions the connection has. A
sample of the table's length is kept for a second, with a counter of the inserts since
the sample. Both are published in several atomic steps, while other tasks insert,
remove, measure and read.
-/

namespace MyQuic2

/-- What the tasks share. A session has the number of its insert; `noted` are the sessions whose
insert is complete. -/
structure SessCount where
  live : Finset Nat
  born : Nat
  noted : Finset Nat
  cachedLen : Nat
  insertsSinceSample : Nat
  cachedLenMs : Nat

/-- A table without sessions and without a sample. -/
def SessCount.new : SessCount := ⟨∅, 0, ∅, 0, 0, 0⟩

inductive CountOp where
  | insert
  /-- Remove sessions in one operation of the table: a close, the exit of a reader, or one batch
  of a sweep. -/
  | remove (sessions : Finset Nat)
  | lenUpperBound (now : Nat)
  /-- Measure the table and publish the length, as a sweep does at its end. -/
  | storeLen (now : Nat)

/-- Where a task stands. A call of `lenUpperBound` carries the sessions that were complete when it
began, and a measured length the number of sessions that had been inserted by then. -/
inductive CountPlace where
  | insert
  | noteInsert (session : Nat)
  | remove (sessions : Finset Nat)
  | loadStamp (now : Nat)
  | loadCached (now stamp : Nat) (begun : Finset Nat)
  | loadSince (now stamp : Nat) (begun : Finset Nat) (cached : Nat)
  | resetSince (now : Nat) (begun : Finset Nat)
  | measure (now : Nat) (begun : Finset Nat)
  | storeCached (now : Nat) (begun : Finset Nat) (n mark : Nat)
  | storeStamp (now : Nat) (begun : Finset Nat) (n mark : Nat)
  | len (now : Nat)
  | publishCached (now n mark : Nat)
  | publishStamp (now n mark : Nat)
  | publishSince (n mark : Nat)

/-- A bound comes with the number of sessions that were complete when the call began and are still
there. -/
inductive CountReturn where
  | unit
  | bound (n still : Nat)
  deriving DecidableEq

def CountOp.entry : CountOp → CountPlace
  | insert => .insert
  | remove sessions => .remove sessions
  | lenUpperBound now => .loadStamp now
  | storeLen now => .len now

/-- A sample is used for a second. -/
def sampleFresh (now stamp : Nat) : Bool := now - stamp < 1000

def SessCount.access (s : SessCount) : CountPlace → SessCount × Then CountPlace CountReturn
  | .insert =>
    ({ s with live := insert s.born s.live, born := s.born + 1 }, .goto (.noteInsert s.born))
  | .noteInsert k =>
    ({ s with noted := insert k s.noted, insertsSinceSample := s.insertsSinceSample + 1 },
      .done .unit)
  | .remove sessions => ({ s with live := s.live \ sessions }, .done .unit)
  | .loadStamp now => (s, .goto (.loadCached now s.cachedLenMs s.noted))
  | .loadCached now stamp begun => (s, .goto (.loadSince now stamp begun s.cachedLen))
  | .loadSince now stamp begun cached =>
    if sampleFresh now stamp then
      (s, .done (.bound (cached + s.insertsSinceSample) (begun ∩ s.live).card))
    else (s, .goto (.resetSince now begun))
  | .resetSince now begun => ({ s with insertsSinceSample := 0 }, .goto (.measure now begun))
  | .measure now begun => (s, .goto (.storeCached now begun s.live.card s.born))
  | .storeCached now begun n mark =>
    ({ s with cachedLen := n }, .goto (.storeStamp now begun n mark))
  | .storeStamp now begun n _ =>
    ({ s with cachedLenMs := now }, .done (.bound n (begun ∩ s.live).card))
  | .len now => (s, .goto (.publishCached now s.live.card s.born))
  | .publishCached now n mark => ({ s with cachedLen := n }, .goto (.publishStamp now n mark))
  | .publishStamp now n mark => ({ s with cachedLenMs := now }, .goto (.publishSince n mark))
  | .publishSince _ _ => ({ s with insertsSinceSample := 0 }, .done .unit)

/-- The calls as a program. -/
def countProgram : Program SessCount CountOp CountPlace CountReturn :=
  ⟨CountOp.entry, SessCount.access⟩

abbrev CountPool := Pool SessCount CountPlace CountReturn

namespace CountPlace

/-- The task is between the first and the last step that publishes a new sample: from the reset to
the stamp of a call that measures again, and from the measurement to the reset of a sweep. -/
def publishing : CountPlace → Bool
  | measure _ _ | storeCached _ _ _ _ | storeStamp _ _ _ _ => true
  | publishCached _ _ _ | publishStamp _ _ _ | publishSince _ _ => true
  | _ => false

/-- The task found the sample fresh and is between the loads of its two numbers. -/
def reading : CountPlace → Bool
  | loadSince now stamp _ _ => sampleFresh now stamp
  | _ => false

/-- The number of sessions inserted by the measurement of a sweep. -/
def sweepMark : CountPlace → Option Nat
  | publishCached _ _ mark | publishStamp _ _ mark | publishSince _ mark => some mark
  | _ => none

end CountPlace

namespace SessCount

variable {s s' : SessCount} {n mark : Nat}

/-- The sessions from before the measurement that are left are no more than were measured. -/
structure Sampled (s : SessCount) (n mark : Nat) : Prop where
  mark_le : mark ≤ s.born
  early : (s.live.filter fun k => k < mark).card ≤ n

/-- A number together with the counter covers the noted sessions from a mark on. -/
def Counts (s : SessCount) (mark n : Nat) : Prop :=
  ((s.noted ∩ s.live).filter fun k => mark ≤ k).card ≤ n + s.insertsSinceSample

/-- Only sessions that were inserted are there or noted. -/
structure WellNumbered (s : SessCount) : Prop where
  live_lt : ∀ k ∈ s.live, k < s.born
  noted_lt : ∀ k ∈ s.noted, k < s.born

/-- What inserts, notes, removals and the publishing of a number do to the table and the counter:
no session comes back, and a new one is counted when it is noted. -/
structure Later (s s' : SessCount) : Prop where
  born_le : s.born ≤ s'.born
  noted_subset : s.noted ⊆ s'.noted
  not_back : ∀ k ∈ s'.live, k < s.born → k ∈ s.live
  counts : ∀ mark n, s.Counts mark n → s'.Counts mark n
  since_le : s.insertsSinceSample ≤ s'.insertsSinceSample

lemma sampled_measured : s.Sampled s.live.card s.born where
  mark_le := le_rfl
  early := Finset.card_filter_le _ _

section

variable (h : s.WellNumbered)
include h

lemma WellNumbered.counts : s.Counts s.born 0 := by
  have hnone : ((s.noted ∩ s.live).filter fun k => s.born ≤ k) = ∅ := by
    refine Finset.filter_eq_empty_iff.mpr fun k hk => ?_
    exact Nat.not_le.mpr (h.noted_lt k (Finset.mem_inter.mp hk).1)
  unfold Counts
  rw [hnone]
  exact Nat.zero_le _

lemma WellNumbered.inserted :
    WellNumbered { s with live := insert s.born s.live, born := s.born + 1 } where
  live_lt k hk := by
    rcases Finset.mem_insert.mp hk with rfl | hk
    · exact Nat.lt_succ_self _
    · exact Nat.lt_succ_of_lt (h.live_lt k hk)
  noted_lt k hk := Nat.lt_succ_of_lt (h.noted_lt k hk)

lemma WellNumbered.withNoted {k : Nat} (hk : k < s.born) (since : Nat) :
    WellNumbered { s with noted := insert k s.noted, insertsSinceSample := since } where
  live_lt := h.live_lt
  noted_lt j hj := by
    rcases Finset.mem_insert.mp hj with rfl | hj
    · exact hk
    · exact h.noted_lt j hj

lemma WellNumbered.removed (sessions : Finset Nat) :
    WellNumbered { s with live := s.live \ sessions } where
  live_lt k hk := h.live_lt k (Finset.mem_sdiff.mp hk).1
  noted_lt := h.noted_lt

end

lemma Sampled.later (h : s.Sampled n mark) (hl : Later s s') : s'.Sampled n mark where
  mark_le := h.mark_le.trans hl.born_le
  early := by
    refine (Finset.card_le_card fun k hk => ?_).trans h.early
    obtain ⟨hlive, hlt⟩ := Finset.mem_filter.mp hk
    exact Finset.mem_filter.mpr ⟨hl.not_back k hlive (hlt.trans_le h.mark_le), hlt⟩

variable {begun : Finset Nat}

/-- Sessions from before the measurement that are still there. -/
lemma Sampled.still_le (h : s.Sampled n mark) (hbegun : ∀ k ∈ begun, k < mark) :
    (begun ∩ s.live).card ≤ n := by
  refine (Finset.card_le_card fun k hk => ?_).trans h.early
  obtain ⟨hk, hlive⟩ := Finset.mem_inter.mp hk
  exact Finset.mem_filter.mpr ⟨hlive, hbegun k hk⟩

/-- A measured length and the counter cover all noted sessions. -/
lemma Sampled.counts (h : s.Sampled n mark) (hlate : s.Counts mark 0) : s.Counts 0 n := by
  have hsplit := Finset.card_filter_add_card_filter_not (s := s.noted ∩ s.live) fun k => k < mark
  have hearly : ((s.noted ∩ s.live).filter fun k => k < mark).card ≤ n :=
    (Finset.card_le_card (Finset.filter_subset_filter _ Finset.inter_subset_right)).trans h.early
  have hrest : ((s.noted ∩ s.live).filter fun k => ¬ k < mark).card ≤ s.insertsSinceSample := by
    unfold Counts at hlate
    simpa using hlate
  have hall := Finset.card_filter_le (s.noted ∩ s.live) fun k => 0 ≤ k
  unfold Counts
  omega

/-- Sessions that were noted by some time and are still there. -/
lemma Counts.still_le (h : s.Counts 0 n) (hbegun : begun ⊆ s.noted) :
    (begun ∩ s.live).card ≤ n + s.insertsSinceSample := by
  refine (Finset.card_le_card fun k hk => ?_).trans h
  exact Finset.mem_filter.mpr ⟨Finset.inter_subset_inter_right hbegun hk, Nat.zero_le k⟩

lemma Later.still_le (hl : Later s s') (h : s.WellNumbered) (hbegun : begun ⊆ s.noted) :
    (begun ∩ s'.live).card ≤ (begun ∩ s.live).card := by
  refine Finset.card_le_card fun k hk => ?_
  obtain ⟨hk, hlive⟩ := Finset.mem_inter.mp hk
  exact Finset.mem_inter.mpr ⟨hk, hl.not_back k hlive (h.noted_lt k (hbegun hk))⟩

lemma later_insert (h : s.WellNumbered) :
    Later s { s with live := insert s.born s.live, born := s.born + 1 } where
  born_le := Nat.le_succ _
  noted_subset := Finset.Subset.refl _
  not_back k hk hlt := (Finset.mem_insert.mp hk).resolve_left hlt.ne
  counts mark n hcounts := by
    have hnew : s.noted ∩ insert s.born s.live = s.noted ∩ s.live :=
      Finset.inter_insert_of_notMem fun hk => (h.noted_lt _ hk).ne rfl
    unfold Counts at hcounts ⊢
    dsimp only
    rw [hnew]
    exact hcounts
  since_le := le_rfl

lemma later_note (k : Nat) :
    Later s { s with
      noted := insert k s.noted
      insertsSinceSample := s.insertsSinceSample + 1 } where
  born_le := le_rfl
  noted_subset := Finset.subset_insert _ _
  not_back _ hk _ := hk
  counts mark n hcounts := by
    unfold Counts at hcounts ⊢
    dsimp only
    have hsub : ((insert k s.noted ∩ s.live).filter fun j => mark ≤ j) ⊆
        insert k ((s.noted ∩ s.live).filter fun j => mark ≤ j) := by
      intro j hj
      obtain ⟨hj, hmark⟩ := Finset.mem_filter.mp hj
      obtain ⟨hj, hlive⟩ := Finset.mem_inter.mp hj
      rcases Finset.mem_insert.mp hj with rfl | hj
      · exact Finset.mem_insert_self _ _
      · exact Finset.mem_insert_of_mem
          (Finset.mem_filter.mpr ⟨Finset.mem_inter.mpr ⟨hj, hlive⟩, hmark⟩)
    exact (Finset.card_le_card hsub).trans ((Finset.card_insert_le _ _).trans
      (Nat.succ_le_succ hcounts))
  since_le := Nat.le_succ _

lemma later_remove (sessions : Finset Nat) : Later s { s with live := s.live \ sessions } where
  born_le := le_rfl
  noted_subset := Finset.Subset.refl _
  not_back _ hk _ := (Finset.mem_sdiff.mp hk).1
  counts _ _ hcounts := (Finset.card_le_card (Finset.filter_subset_filter _
    (Finset.inter_subset_inter_left Finset.sdiff_subset))).trans hcounts
  since_le := le_rfl

/-- Publishing a number leaves the sessions and the counter alone. -/
lemma later_publish (cachedLen cachedLenMs : Nat) :
    Later s { s with cachedLen := cachedLen, cachedLenMs := cachedLenMs } :=
  ⟨le_rfl, Finset.Subset.refl _, fun _ hk _ => hk, fun _ _ hcounts => hcounts, le_rfl⟩

open CountPlace

/-- What a task relies on at its place. -/
def Holds (s : SessCount) : CountPlace → Prop
  | .noteInsert k => k < s.born
  | .loadCached _ _ begun => begun ⊆ s.noted
  | .loadSince now stamp begun cached => begun ⊆ s.noted ∧
      (sampleFresh now stamp = true → (begun ∩ s.live).card ≤ cached + s.insertsSinceSample)
  | .resetSince _ begun => begun ⊆ s.noted
  | .measure _ begun => begun ⊆ s.noted
  | .storeCached _ begun n mark => (∀ k ∈ begun, k < mark) ∧ s.Sampled n mark ∧ s.Counts mark 0
  | .storeStamp _ begun n mark =>
    (∀ k ∈ begun, k < mark) ∧ s.Sampled n mark ∧ s.Counts mark 0 ∧ s.cachedLen = n
  | .publishCached _ n mark => s.Sampled n mark ∧ ∀ k ∈ s.noted, k < mark
  | .publishStamp _ n mark => s.Sampled n mark ∧ (∀ k ∈ s.noted, k < mark) ∧ s.cachedLen = n
  | .publishSince n mark => s.Sampled n mark ∧ (∀ k ∈ s.noted, k < mark) ∧ s.cachedLen = n
  | _ => True

/-- A step of another task that neither resets the counter nor publishes a length. -/
lemma Holds.later {place : CountPlace} (h : s.Holds place) (hs : s.WellNumbered)
    (hl : Later s s') (hcached : place.publishing = true → s'.cachedLen = s.cachedLen)
    (hquiet : ∀ mark ∈ place.sweepMark, ∀ k ∈ s'.noted, k ∈ s.noted ∨ k < mark) :
    s'.Holds place := by
  have hnoted : ∀ mark ∈ place.sweepMark, (∀ k ∈ s.noted, k < mark) → ∀ k ∈ s'.noted, k < mark :=
    fun mark hmark hlt k hk => (hquiet mark hmark k hk).elim (hlt k) id
  cases place with
  | noteInsert k => exact lt_of_lt_of_le h hl.born_le
  | loadCached now stamp begun => exact Finset.Subset.trans h hl.noted_subset
  | loadSince now stamp begun cached =>
    refine ⟨h.1.trans hl.noted_subset, fun hfresh => ?_⟩
    calc (begun ∩ s'.live).card ≤ (begun ∩ s.live).card := hl.still_le hs h.1
      _ ≤ cached + s.insertsSinceSample := h.2 hfresh
      _ ≤ cached + s'.insertsSinceSample := Nat.add_le_add_left hl.since_le cached
  | resetSince _ _ | measure _ _ => exact Finset.Subset.trans h hl.noted_subset
  | storeCached now begun n mark =>
    obtain ⟨hbegun, hsampled, hlate⟩ := h
    exact ⟨hbegun, hsampled.later hl, hl.counts mark 0 hlate⟩
  | storeStamp now begun n mark =>
    obtain ⟨hbegun, hsampled, hlate, hlen⟩ := h
    exact ⟨hbegun, hsampled.later hl, hl.counts mark 0 hlate, (hcached rfl).trans hlen⟩
  | publishCached now n mark => exact ⟨h.1.later hl, hnoted mark rfl h.2⟩
  | publishStamp now n mark | publishSince n mark =>
    exact ⟨h.1.later hl, hnoted mark rfl h.2.1, (hcached rfl).trans h.2.2⟩
  | insert | remove _ | loadStamp _ | len _ => trivial

/-- A reset of the counter by another task. -/
lemma Holds.reset {place : CountPlace} (h : s.Holds place) (hpub : place.publishing = false)
    (hread : place.reading = false) : { s with insertsSinceSample := 0 }.Holds place := by
  cases place with
  | loadSince now stamp begun cached =>
    exact ⟨h.1, fun hfresh => absurd (hread.symm.trans hfresh) (by decide)⟩
  | measure _ _ | storeCached _ _ _ _ | storeStamp _ _ _ _ | publishCached _ _ _
  | publishStamp _ _ _ | publishSince _ _ => cases hpub
  | noteInsert _ | loadCached _ _ _ | resetSince _ _ => exact h
  | insert | remove _ | loadStamp _ | len _ => trivial

end SessCount

namespace CountPool

open CountPlace

/-- A section begins while no other is under way and no call reads, a call that found the sample
fresh does not read within a section, and a session that was inserted after the measurement of a
sweep is not noted before the reset of that sweep. -/
def MayStep (p : CountPool) : CountPlace → Prop
  | .noteInsert k => ∀ place, p.At place → ∀ mark ∈ place.sweepMark, k < mark
  | .loadCached now stamp _ => sampleFresh now stamp = true → p.Avoids publishing
  | .resetSince _ _ => p.Avoids publishing ∧ p.Avoids reading
  | .len _ => p.Avoids publishing ∧ p.Avoids reading
  | _ => True

/-- The condition on an event. -/
def Undisturbed (p : CountPool) : TaskEvent CountOp → Prop
  | .call _ _ => True
  | .step i => ∀ place ∈ p.tasks i, MayStep p place

/-- The number is at least the sessions that the call is about. -/
def Bounds : CountReturn → Prop
  | .unit => True
  | .bound n still => still ≤ n

/-- What holds between the steps of the tasks. -/
structure Bounding (p : CountPool) : Prop where
  numbered : p.shared.WellNumbered
  holds : ∀ place, p.At place → p.shared.Holds place
  alone : ∀ i j a b, p.tasks i = some a → p.tasks j = some b → a.publishing = true →
    b.publishing = true → i = j
  apart : ∀ a, p.At a → a.publishing = true → p.Avoids reading
  /-- Outside the sections the two published numbers are a bound. -/
  counts : p.Avoids publishing → p.shared.Counts 0 p.shared.cachedLen
  bounds : ∀ r ∈ p.returned, Bounds r.2

variable {p : CountPool} {i : Nat} {place : CountPlace}

lemma new_bounding : Bounding (.new .new) where
  numbered := ⟨fun k hk => absurd hk (Finset.notMem_empty k),
    fun k hk => absurd hk (Finset.notMem_empty k)⟩
  holds := by rintro place ⟨i, hi⟩; cases hi
  alone := by rintro i j a b hi; cases hi
  apart := by rintro place ⟨i, hi⟩; cases hi
  counts _ := le_rfl
  bounds r hr := absurd hr List.not_mem_nil

/-- While a task is in a section, the others are in none and do not read. -/
lemma Bounding.others (h : Bounding p) (hi : p.tasks i = some place)
    (hplace : place.publishing = true) {j : Nat} (hj : j ≠ i) {b : CountPlace}
    (hb : p.tasks j = some b) : b.publishing = false ∧ b.reading = false := by
  refine ⟨?_, h.apart place ⟨i, hi⟩ hplace b ⟨j, hb⟩⟩
  cases hpub : b.publishing with
  | false => rfl
  | true => exact absurd (h.alone j i b place hb hi hpub hplace) hj

variable {dest : Option CountPlace} {returned : List (Nat × CountReturn)} {s : SessCount}

/-- A step of one task, from what it leaves to the others and to its own next place. -/
lemma Bounding.move (h : Bounding p) (i : Nat) (hs : s.WellNumbered)
    (hothers : ∀ j b, j ≠ i → p.tasks j = some b → s.Holds b) (hdest : ∀ d ∈ dest, s.Holds d)
    (hpub : ∀ d ∈ dest, d.publishing = true → ∀ j b, j ≠ i → p.tasks j = some b →
      b.publishing = false ∧ b.reading = false)
    (hread : ∀ d ∈ dest, d.reading = true → p.Avoids publishing)
    (hcounts : (p.move i dest).Avoids publishing → s.Counts 0 s.cachedLen)
    (hreturned : ∀ r ∈ returned, Bounds r.2) :
    Bounding { p.move i dest with shared := s, returned := returned } := by
  have hcases : ∀ j b, Function.update p.tasks i dest j = some b →
      j = i ∧ b ∈ dest ∨ j ≠ i ∧ p.tasks j = some b := by
    intro j b hb
    by_cases hj : j = i
    · subst hj
      exact .inl ⟨rfl, by simpa using hb⟩
    · exact .inr ⟨hj, by simpa [hj] using hb⟩
  refine ⟨hs, ?_, ?_, ?_, hcounts, hreturned⟩
  · rintro b ⟨j, hb⟩
    rcases hcases j b hb with ⟨-, hd⟩ | ⟨hj, hold⟩
    · exact hdest b hd
    · exact hothers j b hj hold
  · intro j k a b ha hb hapub hbpub
    rcases hcases j a ha with ⟨rfl, hda⟩ | ⟨hj, haold⟩
    · rcases hcases k b hb with ⟨rfl, -⟩ | ⟨hk, hbold⟩
      · rfl
      · exact absurd ((hpub a hda hapub k b hk hbold).1.symm.trans hbpub) (by decide)
    rcases hcases k b hb with ⟨rfl, hdb⟩ | ⟨hk, hbold⟩
    · exact absurd ((hpub b hdb hbpub j a hj haold).1.symm.trans hapub) (by decide)
    · exact h.alone j k a b haold hbold hapub hbpub
  rintro a ⟨j, ha⟩ hapub b ⟨k, hb⟩
  rcases hcases j a ha with ⟨rfl, hda⟩ | ⟨hj, haold⟩
  · rcases hcases k b hb with ⟨rfl, hdb⟩ | ⟨hk, hbold⟩
    · -- No place is both in a section and between two loads.
      obtain rfl : a = b := Option.mem_unique hda hdb
      cases a <;> first | rfl | cases hapub
    · exact (hpub a hda hapub k b hk hbold).2
  · rcases hcases k b hb with ⟨rfl, hdb⟩ | ⟨hk, hbold⟩
    · cases hr : b.reading with
      | false => rfl
      | true => exact absurd ((hread b hdb hr a ⟨j, haold⟩).symm.trans hapub) (by decide)
    · exact h.apart a ⟨j, haold⟩ hapub b ⟨k, hbold⟩

/-- A task that is in no section leaves the sections as they are. -/
lemma avoids_of_move (hi : p.tasks i = some place) (hplace : place.publishing = false)
    (h : (p.move i dest).Avoids publishing) : p.Avoids publishing := by
  rintro b ⟨j, hb⟩
  by_cases hj : j = i
  · subst hj
    obtain rfl : place = b := Option.some.inj (hi.symm.trans hb)
    exact hplace
  · exact h b ⟨j, by simpa [Pool.move, hj] using hb⟩

lemma next_goto (hi : p.tasks i = some place) {dest : CountPlace}
    (hstep : p.shared.access place = (s, .goto dest)) :
    countProgram.next p (.step i) =
      { p.move i (some dest) with shared := s, returned := p.returned } := by
  have hprog : countProgram.step p.shared place = (s, .goto dest) := hstep
  simp only [Program.next, hi, hprog]
  rfl

lemma next_done (hi : p.tasks i = some place) {r : CountReturn}
    (hstep : p.shared.access place = (s, .done r)) :
    countProgram.next p (.step i) =
      { p.move i none with shared := s, returned := p.returned ++ [(i, r)] } := by
  have hprog : countProgram.step p.shared place = (s, .done r) := hstep
  simp [Program.next, hi, hprog]

lemma Bounding.returned_append (h : Bounding p) {r : CountReturn} (hr : Bounds r) :
    ∀ x ∈ p.returned ++ [(i, r)], Bounds x.2 := by
  intro x hx
  rcases List.mem_append.mp hx with hx | hx
  · exact h.bounds x hx
  · obtain rfl := List.mem_singleton.mp hx
    exact hr

/-- A section begins, alone, by resetting the counter. -/
lemma Bounding.enters (h : Bounding p) (havoid : p.Avoids publishing) (hnoread : p.Avoids reading)
    {dest : CountPlace} (hdest : { p.shared with insertsSinceSample := 0 }.Holds dest)
    (hpub : dest.publishing = true) (hread : dest.reading = false) :
    Bounding { p.move i (some dest) with
      shared := { p.shared with insertsSinceSample := 0 }, returned := p.returned } := by
  refine h.move i ⟨h.numbered.live_lt, h.numbered.noted_lt⟩ ?_ ?_ ?_ ?_ ?_ h.bounds
  · exact fun j b _ hb => (h.holds b ⟨j, hb⟩).reset (havoid b ⟨j, hb⟩) (hnoread b ⟨j, hb⟩)
  · rintro _ ⟨⟩
    exact hdest
  · exact fun _ _ _ j b _ hb => ⟨havoid b ⟨j, hb⟩, hnoread b ⟨j, hb⟩⟩
  · rintro _ ⟨⟩ hd
    exact absurd (hread.symm.trans hd) (by decide)
  · intro hnone
    have hat : (p.move i (some dest)).At dest := ⟨i, by simp [Pool.move]⟩
    exact absurd ((hnone _ hat).symm.trans hpub) (by decide)

section

variable (h : Bounding p) (hi : p.tasks i = some place)
include h hi

section

variable (hplace : place.publishing = false) (hs : s.WellNumbered) (hl : SessCount.Later p.shared s)
  (hcached : s.cachedLen = p.shared.cachedLen)
  (hquiet : ∀ b, p.At b → ∀ mark ∈ b.sweepMark, ∀ k ∈ s.noted, k ∈ p.shared.noted ∨ k < mark)
include hplace hs hl hcached hquiet

/-- A step outside the sections that does not reset the counter. -/
lemma Bounding.outside (hdest : ∀ d ∈ dest, s.Holds d)
    (hpub : ∀ d ∈ dest, d.publishing = true → p.Avoids publishing ∧ p.Avoids reading)
    (hread : ∀ d ∈ dest, d.reading = true → p.Avoids publishing)
    (hreturned : ∀ r ∈ returned, Bounds r.2) :
    Bounding { p.move i dest with shared := s, returned := returned } := by
  refine h.move i hs ?_ hdest ?_ hread ?_ hreturned
  · intro j b _ hb
    exact (h.holds b ⟨j, hb⟩).later h.numbered hl (fun _ => hcached) (hquiet b ⟨j, hb⟩)
  · intro d hd hdpub j b _ hb
    obtain ⟨havoid, hnoread⟩ := hpub d hd hdpub
    exact ⟨havoid b ⟨j, hb⟩, hnoread b ⟨j, hb⟩⟩
  · intro havoid
    rw [hcached]
    exact hl.counts 0 _ (h.counts (avoids_of_move hi hplace havoid))

/-- A call ends outside the sections. -/
lemma Bounding.ends {r : CountReturn} (hr : Bounds r) :
    Bounding { p.move i none with shared := s, returned := p.returned ++ [(i, r)] } :=
  h.outside hi hplace hs hl hcached hquiet (by simp) (by simp) (by simp) (h.returned_append hr)

end

/-- A step that only takes the task on. -/
lemma Bounding.goes (hplace : place.publishing = false) {dest : CountPlace}
    (hdest : p.shared.Holds dest)
    (hpub : dest.publishing = true → p.Avoids publishing ∧ p.Avoids reading)
    (hread : dest.reading = true → p.Avoids publishing) :
    Bounding { p.move i (some dest) with shared := p.shared, returned := p.returned } := by
  refine h.outside hi hplace h.numbered (p.shared.later_publish _ _) rfl
    (fun _ _ _ _ _ hk => .inl hk) ?_ ?_ ?_ h.bounds
  · rintro _ ⟨⟩
    exact hdest
  · rintro _ ⟨⟩
    exact hpub
  · rintro _ ⟨⟩
    exact hread

/-- A step within a section, to its next place or out of it. -/
lemma Bounding.within (hplace : place.publishing = true) (hs : s.WellNumbered)
    (hothers : ∀ b : CountPlace, b.publishing = false → b.reading = false → p.shared.Holds b →
      s.Holds b) (hdest : ∀ d ∈ dest, s.Holds d ∧ d.reading = false)
    (hcounts : dest = none → s.Counts 0 s.cachedLen) (hpub : ∀ d ∈ dest, d.publishing = true)
    (hreturned : ∀ r ∈ returned, Bounds r.2) :
    Bounding { p.move i dest with shared := s, returned := returned } := by
  refine h.move i hs ?_ (fun d hd => (hdest d hd).1) ?_ ?_ ?_ hreturned
  · intro j b hj hb
    obtain ⟨hbpub, hbread⟩ := h.others hi hplace hj hb
    exact hothers b hbpub hbread (h.holds b ⟨j, hb⟩)
  · exact fun d _ _ j b hj hb => h.others hi hplace hj hb
  · exact fun d hd hread => absurd ((hdest d hd).2.symm.trans hread) (by decide)
  · intro havoid
    cases dest with
    | none => exact hcounts rfl
    | some d =>
      have hat : (p.move i (some d)).At d := ⟨i, by simp [Pool.move]⟩
      exact absurd ((havoid d hat).symm.trans (hpub d rfl)) (by decide)

/-- A section publishes a part of its sample, or nothing, and goes on. -/
lemma Bounding.onward (hplace : place.publishing = true) (n stamp : Nat) {dest : CountPlace}
    (hdest : { p.shared with cachedLen := n, cachedLenMs := stamp }.Holds dest)
    (hpub : dest.publishing = true) (hread : dest.reading = false) :
    Bounding { p.move i (some dest) with
      shared := { p.shared with cachedLen := n, cachedLenMs := stamp },
      returned := p.returned } := by
  refine h.within hi hplace ⟨h.numbered.live_lt, h.numbered.noted_lt⟩ ?_ ?_
    (fun hnone => (Option.some_ne_none _ hnone).elim) ?_ h.bounds
  · exact fun b hout _ hb => hb.later h.numbered (p.shared.later_publish n stamp)
      (fun htrue => absurd (hout.symm.trans htrue) (by decide)) fun _ _ _ hk => .inl hk
  · rintro _ ⟨⟩
    exact ⟨hdest, hread⟩
  · rintro _ ⟨⟩
    exact hpub

end

lemma Bounding.begin (h : Bounding p) (hi : p.tasks i = none) (op : CountOp) :
    Bounding (p.move i (some op.entry)) := by
  have hentry : p.shared.Holds op.entry ∧ op.entry.publishing = false ∧
      op.entry.reading = false := by
    cases op <;> exact ⟨trivial, rfl, rfl⟩
  obtain ⟨hholds, hpub, hread⟩ := hentry
  refine h.move i h.numbered (fun j b _ hb => h.holds b ⟨j, hb⟩) ?_ ?_ ?_ ?_ h.bounds
  · rintro _ ⟨⟩
    exact hholds
  · rintro _ ⟨⟩ hd
    exact absurd (hpub.symm.trans hd) (by decide)
  · rintro _ ⟨⟩ hd
    exact absurd (hread.symm.trans hd) (by decide)
  · intro havoid
    exact h.counts fun b hb => havoid b (hb.call hi _)

lemma Bounding.step (h : Bounding p) (hi : p.tasks i = some place)
    (hcond : MayStep p place) : Bounding (countProgram.next p (.step i)) := by
  have hplace := h.holds place ⟨i, hi⟩
  cases place with
  | insert =>
    rw [next_goto hi rfl]
    refine h.outside hi rfl h.numbered.inserted (SessCount.later_insert h.numbered) rfl
      (fun _ _ _ _ _ hk => .inl hk) ?_ ?_ ?_ h.bounds
    · rintro _ ⟨⟩
      exact Nat.lt_succ_self _
    · rintro _ ⟨⟩ ⟨⟩
    · rintro _ ⟨⟩ ⟨⟩
  | noteInsert k =>
    rw [next_done hi rfl]
    refine h.ends hi rfl (h.numbered.withNoted hplace _) (p.shared.later_note k) rfl ?_ trivial
    intro b hb mark hmark j hj
    rcases Finset.mem_insert.mp hj with rfl | hj
    · exact .inr (hcond b hb mark hmark)
    · exact .inl hj
  | remove sessions =>
    rw [next_done hi rfl]
    exact h.ends hi rfl (h.numbered.removed sessions) (p.shared.later_remove sessions) rfl
      (fun _ _ _ _ _ hk => .inl hk) trivial
  | loadStamp now =>
    rw [next_goto hi rfl]
    exact h.goes hi rfl (Finset.Subset.refl _) (fun hd => (Bool.false_ne_true hd).elim)
      fun hd => (Bool.false_ne_true hd).elim
  | loadCached now stamp begun =>
    rw [next_goto hi rfl]
    refine h.goes hi rfl ⟨hplace, fun hfresh => ?_⟩ (fun hd => (Bool.false_ne_true hd).elim) hcond
    exact (h.counts (hcond hfresh)).still_le hplace
  | loadSince now stamp begun cached =>
    by_cases hfresh : sampleFresh now stamp = true
    · rw [next_done hi (if_pos hfresh)]
      exact h.ends hi rfl h.numbered (p.shared.later_publish _ _) rfl
        (fun _ _ _ _ _ hk => .inl hk) (hplace.2 hfresh)
    · rw [next_goto hi (if_neg hfresh)]
      exact h.goes hi rfl hplace.1 (fun hd => (Bool.false_ne_true hd).elim)
        fun hd => (Bool.false_ne_true hd).elim
  | resetSince now begun =>
    rw [next_goto hi rfl]
    exact h.enters hcond.1 hcond.2 hplace rfl rfl
  | measure now begun =>
    rw [next_goto hi rfl]
    exact h.onward hi rfl p.shared.cachedLen p.shared.cachedLenMs
      ⟨fun k hk => h.numbered.noted_lt k (hplace hk), p.shared.sampled_measured,
        h.numbered.counts⟩ rfl rfl
  | storeCached now begun n mark =>
    rw [next_goto hi rfl]
    obtain ⟨hbegun, hsampled, hlate⟩ := hplace
    have hl := p.shared.later_publish n p.shared.cachedLenMs
    exact h.onward hi rfl n _ ⟨hbegun, hsampled.later hl, hl.counts mark 0 hlate, rfl⟩ rfl rfl
  | storeStamp now begun n mark =>
    rw [next_done hi rfl]
    obtain ⟨hbegun, hsampled, hlate, hlen⟩ := hplace
    have hl := p.shared.later_publish p.shared.cachedLen now
    refine h.within hi rfl ⟨h.numbered.live_lt, h.numbered.noted_lt⟩ ?_
      (by rintro _ ⟨⟩) ?_ (by rintro _ ⟨⟩) (h.returned_append (hsampled.still_le hbegun))
    · exact fun b _ _ hb => hb.later h.numbered hl (fun _ => rfl) fun _ _ _ hk => .inl hk
    · intro _
      rw [← hlen] at hsampled
      exact hl.counts 0 _ (hsampled.counts hlate)
  | len now =>
    rw [next_goto hi rfl]
    exact h.goes hi rfl ⟨p.shared.sampled_measured, h.numbered.noted_lt⟩ (fun _ => hcond)
      fun hd => (Bool.false_ne_true hd).elim
  | publishCached now n mark =>
    rw [next_goto hi rfl]
    have hl := p.shared.later_publish n p.shared.cachedLenMs
    exact h.onward hi rfl n _ ⟨hplace.1.later hl, hplace.2, rfl⟩ rfl rfl
  | publishStamp now n mark =>
    rw [next_goto hi rfl]
    have hl := p.shared.later_publish p.shared.cachedLen now
    exact h.onward hi rfl _ now ⟨hplace.1.later hl, hplace.2.1, hplace.2.2⟩ rfl rfl
  | publishSince n mark =>
    rw [next_done hi rfl]
    obtain ⟨hsampled, hnoted, hlen⟩ := hplace
    refine h.within hi rfl ⟨h.numbered.live_lt, h.numbered.noted_lt⟩ ?_
      (by rintro _ ⟨⟩) ?_ (by rintro _ ⟨⟩) (h.returned_append trivial)
    · exact fun b hpub hread hb => hb.reset hpub hread
    · intro _
      rw [← hlen] at hsampled
      exact (Finset.card_filter_le _ _).trans (hsampled.still_le hnoted)

lemma Bounding.next (h : Bounding p) (e : TaskEvent CountOp) (hcond : Undisturbed p e) :
    Bounding (countProgram.next p e) := by
  cases e with
  | call i op =>
    cases hi : p.tasks i with
    | none =>
      have hnext : countProgram.next p (.call i op) = p.move i (some op.entry) := by
        simp [Program.next, hi, countProgram]
      rw [hnext]
      exact h.begin hi op
    | some place => simpa [Program.next, hi] using h
  | step i =>
    cases hi : p.tasks i with
    | none => simpa [Program.next, hi] using h
    | some place => exact h.step hi (hcond place hi)

/-- As long as the sections that publish a sample are undisturbed, every call returns at least the
number of sessions that were complete when it began and are still there. -/
theorem len_upper_bound_bounds (es : List (TaskEvent CountOp))
    (hcond : Along countProgram.next Undisturbed (.new .new) es) :
    ∀ r ∈ (after countProgram.next (.new .new) es).returned, Bounds r.2 :=
  (after_of_invariant (fun _ e h hcond => h.next e hcond) new_bounding hcond).bounds

/-- The condition on a step when only the tasks below a number are in a call. -/
private def mayStepBelow (n : Nat) (p : CountPool) : CountPlace → Bool
  | .noteInsert k => (List.range n).all fun j => (p.tasks j).all fun place =>
    place.sweepMark.all fun mark => k < mark
  | .loadCached _ _ _ | .resetSince _ _ | .len _ =>
    (List.range n).all fun j => (p.tasks j).all fun place => !place.publishing && !place.reading
  | _ => true

private def undisturbedBelow (n : Nat) (p : CountPool) : TaskEvent CountOp → Bool
  | .call _ _ => true
  | .step i => (p.tasks i).all (mayStepBelow n p)

lemma undisturbed_of_below {n : Nat} (p : CountPool) (e : TaskEvent CountOp)
    (h : p.Below n) (hcheck : undisturbedBelow n p e = true) : Undisturbed p e := by
  have hall : ∀ {check : CountPlace → Bool}, ((List.range n).all fun j =>
      (p.tasks j).all check) = true → ∀ place, p.At place → check place = true := by
    intro check hcheck
    refine h.of_forall fun j hj place hplace => ?_
    have htask := List.all_eq_true.mp hcheck j (List.mem_range.mpr hj)
    rw [Option.mem_def.mp hplace] at htask
    exact htask
  have havoids : ((List.range n).all fun j => (p.tasks j).all fun place =>
      !place.publishing && !place.reading) = true → p.Avoids publishing ∧ p.Avoids reading := by
    intro hcheck
    have hboth := fun place hat => Bool.and_eq_true_iff.mp (hall hcheck place hat)
    exact ⟨fun place hat => by simpa using (hboth place hat).1,
      fun place hat => by simpa using (hboth place hat).2⟩
  cases e with
  | call i op => trivial
  | step i =>
    intro place hplace
    have hmay : mayStepBelow n p place = true := by
      have htask : (p.tasks i).all (mayStepBelow n p) = true := hcheck
      rw [Option.mem_def.mp hplace] at htask
      exact htask
    cases place with
    | noteInsert k =>
      intro place hat mark hmark
      have hmarks := hall hmay place hat
      rw [Option.mem_def.mp hmark] at hmarks
      exact of_decide_eq_true hmarks
    | loadCached now stamp begun => exact fun _ => (havoids hmay).1
    | resetSince _ _ | len _ => exact havoids hmay
    | _ => trivial

/-- Two sessions, a call that measures again, a sweep, and calls that use the two samples. -/
private def steadyTraffic : List (TaskEvent CountOp) :=
  [.call 0 .insert, .step 0, .call 1 (.lenUpperBound 5000), .step 1, .step 0, .step 1, .step 1,
    .step 1, .step 1, .call 2 .insert, .step 2, .step 2, .step 1, .step 1,
    .call 0 (.lenUpperBound 5500), .step 0, .step 0, .step 0,
    .call 1 (.storeLen 6000), .step 1, .step 1, .step 1, .step 1,
    .call 2 (.lenUpperBound 6100), .step 2, .step 2, .step 2]

/-- The second session comes between the measurement and its publication and is counted. -/
theorem len_upper_bound_bounds_interleaved :
    let p := after countProgram.next (.new .new) steadyTraffic
    p.returned = [(0, .unit), (2, .unit), (1, .bound 1 0), (0, .bound 2 2), (1, .unit),
      (2, .bound 2 2)] ∧ ∀ r ∈ p.returned, Bounds r.2 :=
  ⟨by decide, len_upper_bound_bounds steadyTraffic
    ((Pool.new_below 3 SessCount.new).along undisturbed_of_below (by decide) (by decide))⟩

/-- A session that is inserted and noted between the measurement and the reset of a sweep is
counted nowhere. -/
theorem sweep_forgets_insert :
    (after countProgram.next (.new .new)
      [.call 0 (.storeLen 5000), .step 0, .call 1 .insert, .step 1, .step 1,
        .step 0, .step 0, .step 0,
        .call 2 (.lenUpperBound 5000), .step 2, .step 2, .step 2]).returned =
      [(1, .unit), (0, .unit), (2, .bound 0 1)] := by
  decide

end CountPool

end MyQuic2
