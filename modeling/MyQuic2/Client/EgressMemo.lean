import MyQuic2.Core.Run
import Mathlib.Data.Finset.Card

/-!
# The egress memo of a thread

Whoever changes the cached handle of a binding stores it first and then moves the
generation on. A thread loads the generation before it reads the handle that it will
remember, so a change that is complete has moved the generation past every handle that
was read before its store.
-/

namespace MyQuic2

open Finset

def egressRefreshMs : Nat := 1000

/-- A remembered handle, with the number of stores before it was read. -/
structure EgressMemo (η : Type) where
  generation : Nat
  handle : η
  stampMs : Nat
  readAt : Nat

/-- What a thread is doing. Stores are numbered from one. -/
inductive EgressPlace (η : Type) where
  | idle
  /-- A store into the cache, before its bump. -/
  | stored (k : Nat)
  /-- The generation is loaded, the handle not yet there. -/
  | loaded (generation : Nat)
  | got (generation : Nat) (handle : η) (readAt : Nat)
  /-- In `with_fresh`, with the mutations that were complete at the load. -/
  | fresh (generation : Nat) (seen : Finset Nat)

/-- The cache of a binding with its threads, and of its history the stores, those whose bump is
done, and what was served. -/
structure EgressCell (η : Type) where
  cached : Option η
  generation : Nat
  stores : Nat
  done : Finset Nat
  tasks : Nat → EgressPlace η
  memo : Nat → Option (EgressMemo η)
  served : List (EgressMemo η × Finset Nat)

inductive EgressAct (η : Type) where
  /-- Publish a handle, invalidate, or forget a slot, also on behalf of a thread that acquires. -/
  | store (handle : Option η)
  | bump
  | load
  | read
  /-- The walk over the slots finds a handle. -/
  | scan (handle : η)
  | memoStore (stampMs : Nat)
  | freshLoad
  | freshCheck (nowMs : Nat)

namespace EgressCell

variable {η : Type}

section

variable (c : EgressCell η) (i nowMs generation : Nat)

def new (η : Type) : EgressCell η := ⟨none, 0, 0, ∅, fun _ => .idle, fun _ => none, []⟩

def goto (p : EgressPlace η) : EgressCell η :=
  { c with tasks := Function.update c.tasks i p }

def remember (e : Option (EgressMemo η)) : EgressCell η :=
  { c with memo := Function.update c.memo i e }

/-- The memo answers when its generation is the loaded one and its window has not passed. -/
def withFresh (seen : Finset Nat) : EgressCell η :=
  match c.memo i with
  | some e =>
    if e.generation = generation ∧ nowMs - e.stampMs < egressRefreshMs then
      { c with served := c.served ++ [(e, seen)] }
    else c.remember i none
  | none => c

def step : EgressPlace η → EgressAct η → EgressCell η
  | .idle, .store handle =>
    { c with cached := handle, stores := c.stores + 1 }.goto i (.stored (c.stores + 1))
  | .stored k, .bump =>
    { c.goto i .idle with generation := c.generation + 1, done := insert k c.done }
  | .idle, .load => c.goto i (.loaded c.generation)
  | .loaded g, .read =>
    match c.cached with
    | some handle => c.goto i (.got g handle c.stores)
    | none => (c.remember i none).goto i .idle
  | .loaded g, .scan handle => c.goto i (.got g handle c.stores)
  | .got g handle r, .memoStore stampMs =>
    (c.remember i (some ⟨g, handle, stampMs, r⟩)).goto i .idle
  | .idle, .freshLoad => c.goto i (.fresh c.generation c.done)
  | .fresh g seen, .freshCheck nowMs => (c.withFresh i nowMs g seen).goto i .idle
  | _, _ => c

def next (ev : Nat × EgressAct η) : EgressCell η :=
  c.step ev.1 (c.tasks ev.1) ev.2

end

/-- The bumps behind the stores up to a time are at least as many as the generation. -/
def Covers (done : Finset Nat) (generation time : Nat) : Prop :=
  generation ≤ (done.filter (· ≤ time)).card

/-- The generation counts the bumps, and a handle was read when those that it is tagged with were
done. -/
structure Ordered (c : EgressCell η) : Prop where
  count : c.generation = c.done.card
  past : ∀ k ∈ c.done, k ≤ c.stores
  pending : ∀ i k, c.tasks i = .stored k → k ≤ c.stores ∧ k ∉ c.done
  apart : ∀ i j k, c.tasks i = .stored k → c.tasks j = .stored k → i = j
  loaded : ∀ i g, c.tasks i = .loaded g → g ≤ c.generation
  held : ∀ i g handle r, c.tasks i = .got g handle r → Covers c.done g r
  memos : ∀ i e, c.memo i = some e → Covers c.done e.generation e.readAt
  fresh : ∀ i g seen, c.tasks i = .fresh g seen →
    g = seen.card ∧ ∀ e, c.memo i = some e → Covers seen e.generation e.readAt
  served : ∀ s ∈ c.served, ∀ k ∈ s.2, k ≤ s.1.readAt

lemma Covers.mono {done done' : Finset Nat} {g r : Nat} (h : Covers done g r)
    (hsub : done ⊆ done') : Covers done' g r :=
  h.trans (card_le_card (filter_subset_filter _ hsub))

/-- A generation that counts all bumps leaves none behind the time. -/
lemma Covers.le {done : Finset Nat} {r : Nat} (h : Covers done done.card r) : ∀ k ∈ done, k ≤ r :=
  fun _ hk => filter_eq_self.mp (eq_of_subset_of_card_le (filter_subset _ _) h) _ hk

lemma ordered_new : (new η).Ordered where
  count := rfl
  past k hk := by cases hk
  pending i k hk := by cases hk
  apart i j k hk := by cases hk
  loaded i g hg := by cases hg
  held i g handle r hg := by cases hg
  memos i e he := by cases he
  fresh i g seen hg := by cases hg
  served s hs := by cases hs

variable {c : EgressCell η} {i : Nat} {p : EgressPlace η}

section

variable (h : c.Ordered)
include h

/-- A handle that is read now lies behind every bump. -/
lemma Ordered.covers_now {g : Nat} (hg : g ≤ c.generation) : Covers c.done g c.stores := by
  rwa [Covers, filter_true_of_mem h.past, ← h.count]

/-- A thread goes to a place that fits. -/
lemma Ordered.goto
    (hpending : ∀ k, p = .stored k → k ≤ c.stores ∧ k ∉ c.done ∧ ∀ j, c.tasks j ≠ .stored k)
    (hloaded : ∀ g, p = .loaded g → g ≤ c.generation)
    (hheld : ∀ g handle r, p = .got g handle r → Covers c.done g r)
    (hfresh : ∀ g seen, p = .fresh g seen →
      g = seen.card ∧ ∀ e, c.memo i = some e → Covers seen e.generation e.readAt) :
    (c.goto i p).Ordered := by
  refine { h with pending := ?_, apart := ?_, loaded := ?_, held := ?_, fresh := ?_ } <;>
    simp only [EgressCell.goto, Function.update_apply]
  · grind [h.pending]
  · grind [h.apart]
  · grind [h.loaded]
  · grind [h.held]
  · grind [h.fresh]

lemma Ordered.rest : (c.goto i .idle).Ordered :=
  h.goto (by rintro _ ⟨⟩) (by rintro _ ⟨⟩) (by rintro _ _ _ ⟨⟩) (by rintro _ _ ⟨⟩)

lemma Ordered.remember {e : Option (EgressMemo η)}
    (he : ∀ m, e = some m → Covers c.done m.generation m.readAt)
    (hplace : ∀ g seen, c.tasks i = .fresh g seen → e = none) : (c.remember i e).Ordered := by
  refine { h with memos := ?_, fresh := ?_ } <;>
    simp only [EgressCell.remember, Function.update_apply]
  · grind [h.memos]
  · grind [h.fresh]

/-- A store has a number of its own. -/
lemma Ordered.stored (handle : Option η) :
    ({ c with cached := handle, stores := c.stores + 1 }.goto i
      (.stored (c.stores + 1))).Ordered := by
  have hlater : Ordered { c with cached := handle, stores := c.stores + 1 } :=
    { h with
      past := fun k hk => (h.past k hk).trans (Nat.le_succ _)
      pending := fun i k hk => (h.pending i k hk).imp_left fun hle => hle.trans (Nat.le_succ _) }
  refine hlater.goto ?_ (by rintro _ ⟨⟩) (by rintro _ _ _ ⟨⟩) (by rintro _ _ ⟨⟩)
  rintro _ ⟨⟩
  exact ⟨Nat.le_refl _, fun hmem => absurd (h.past _ hmem) (Nat.not_succ_le_self _),
    fun j hj => absurd (h.pending j _ hj).1 (Nat.not_succ_le_self _)⟩

/-- The generation moves on behind a thread's own store. -/
lemma Ordered.bumped {k : Nat} (hi : c.tasks i = .stored k) :
    Ordered { c.goto i .idle with generation := c.generation + 1, done := insert k c.done } := by
  obtain ⟨hle, hnot⟩ := h.pending i k hi
  have hsub : c.done ⊆ insert k c.done := subset_insert ..
  have hrest : (c.goto i .idle).Ordered := h.rest
  refine { hrest with
    count := ?_
    past := (forall_mem_insert ..).mpr ⟨hle, h.past⟩
    pending := fun j k' hj => ⟨(hrest.pending j k' hj).1, ?_⟩
    loaded := fun j g hj => (hrest.loaded j g hj).trans (Nat.le_succ _)
    held := fun j g handle r hj => (hrest.held j g handle r hj).mono hsub
    memos := fun j e he => (h.memos j e he).mono hsub }
  · rw [card_insert_of_notMem hnot, h.count]
  · rw [mem_insert, not_or]
    refine ⟨?_, (hrest.pending j k' hj).2⟩
    rintro rfl
    by_cases hji : j = i
    · simp [EgressCell.goto, hji] at hj
    · exact hji (h.apart j i k' (by simpa [EgressCell.goto, hji] using hj) hi)

lemma Ordered.withFresh {g : Nat} {seen : Finset Nat} (hi : c.tasks i = .fresh g seen)
    (nowMs : Nat) : (c.withFresh i nowMs g seen).Ordered := by
  obtain ⟨rfl, hmemo⟩ := h.fresh i g seen hi
  unfold EgressCell.withFresh
  split
  · rename_i e he
    split
    · rename_i hhit
      have hcovers := hmemo e he
      rw [hhit.1] at hcovers
      exact { h with
        served := List.forall_mem_append.mpr ⟨h.served, List.forall_mem_singleton.mpr hcovers.le⟩ }
    · exact h.remember (by rintro _ ⟨⟩) fun _ _ _ => rfl
  · exact h

lemma Ordered.next (ev : Nat × EgressAct η) : (c.next ev).Ordered := by
  obtain ⟨i, act⟩ := ev
  have hread : ∀ g handle, c.tasks i = .loaded g → (c.goto i (.got g handle c.stores)).Ordered := by
    intro g handle hi
    refine h.goto (by rintro _ ⟨⟩) (by rintro _ ⟨⟩) ?_ (by rintro _ _ ⟨⟩)
    rintro _ _ _ ⟨⟩
    exact h.covers_now (h.loaded i g hi)
  unfold EgressCell.next
  generalize hi : c.tasks i = place
  unfold step
  split
  · exact h.stored _
  · exact h.bumped hi
  · refine h.goto (by rintro _ ⟨⟩) ?_ (by rintro _ _ _ ⟨⟩) (by rintro _ _ ⟨⟩)
    rintro _ ⟨⟩
    exact Nat.le_refl _
  · split
    · exact hread _ _ hi
    · exact (h.remember (by rintro _ ⟨⟩) fun _ _ _ => rfl).rest
  · exact hread _ _ hi
  · refine (h.remember ?_ fun _ _ hfresh => ?_).rest
    · rintro _ ⟨⟩
      exact h.held i _ _ _ hi
    · rw [hi] at hfresh
      cases hfresh
  · refine h.goto (by rintro _ ⟨⟩) (by rintro _ ⟨⟩) (by rintro _ _ _ ⟨⟩) ?_
    rintro _ _ ⟨⟩
    exact ⟨h.count, h.memos i⟩
  · exact (h.withFresh hi _).rest
  · exact h

end

/-- Whatever the threads do, a handle that the memo serves was read behind the store of every change
that was complete when the generation was loaded. -/
theorem memo_never_outlives (es : List (Nat × EgressAct η)) :
    ∀ s ∈ (after next (new η) es).served, ∀ k ∈ s.2, k ≤ s.1.readAt :=
  (after_of_kept (fun _ ev h => h.next ev) ordered_new es).served

theorem memo_never_outlives_hit :
    let es := [(0, .store (some 5)), (0, .bump), (1, .load), (1, .read), (1, .memoStore 0),
      (1, .freshLoad), (1, .freshCheck 0)]
    ∃ s ∈ (after next (new Nat) es).served, 1 ∈ s.2 ∧ 1 ≤ s.1.readAt := by
  intro es
  have hseen := mem_insert_self 1 ∅
  exact ⟨_, .head _, hseen, memo_never_outlives es _ (.head _) 1 hseen⟩

end EgressCell

end MyQuic2
