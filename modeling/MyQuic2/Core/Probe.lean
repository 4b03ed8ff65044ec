import Mathlib.Data.Fintype.Card
import Mathlib.Data.Nat.ModEq

/-!
# Linear probing

Keys are numbered in the order they come. The cells of a fixed table name them, each key
from the cell of its hash on, in the first cell that was free.
-/

namespace MyQuic2

open Function

structure ProbeTable (κ : Type) where
  cell : Nat → Option Nat
  keys : List κ

namespace ProbeTable

variable {κ : Type} {n : Nat} {hash : κ → Nat} {t : ProbeTable κ} {key : κ}

/-- Every number stands in one cell, which its key reaches over taken cells only. -/
structure Probed (n : Nat) (hash : κ → Nat) (t : ProbeTable κ) : Prop where
  nodup : t.keys.Nodup
  path : ∀ s k, t.keys[s]? = some k → ∃ j, t.cell ((hash k + j) % n) = some s ∧
    ∀ i < j, t.cell ((hash k + i) % n) ≠ none
  lt : ∀ c s, t.cell c = some s → s < t.keys.length
  inj : ∀ c c' s, t.cell c = some s → t.cell c' = some s → c = c'

lemma probed_empty : Probed n hash ⟨fun _ => none, []⟩ :=
  ⟨.nil, by simp, by simp, by simp⟩

/-- With fewer keys than cells, a free cell can be reached from anywhere. -/
lemma Probed.exists_free (h : Probed n hash t) (hlt : t.keys.length < n) (start : Nat) :
    ∃ k < n, t.cell ((start + k) % n) = none := by
  by_contra hall
  push Not at hall
  choose f hf using fun k : Fin n => Option.ne_none_iff_exists'.mp (hall k k.isLt)
  have hinj : Function.Injective fun k => (⟨f k, h.lt _ _ (hf k)⟩ : Fin t.keys.length) := by
    intro k k' heq
    have hcell := h.inj _ _ (f k) (hf k) (by rw [hf k', ← Fin.mk.inj heq])
    exact Fin.ext ((Nat.ModEq.add_left_cancel' start hcell).eq_of_lt_of_lt k.isLt k'.isLt)
  simpa [hlt.not_ge] using Fintype.card_le_of_injective _ hinj

lemma Probed.push (h : Probed n hash t) {k : Nat} (hnew : key ∉ t.keys)
    (hfree : t.cell ((hash key + k) % n) = none)
    (hpath : ∀ i < k, t.cell ((hash key + i) % n) ≠ none) :
    Probed n hash ⟨Function.update t.cell ((hash key + k) % n) (some t.keys.length),
      t.keys ++ [key]⟩ := by
  have hkeep : ∀ c, t.cell c ≠ none → Function.update t.cell ((hash key + k) % n)
      (some t.keys.length) c = t.cell c := by
    intro c hc
    refine update_of_ne ?_ _ _
    rintro rfl
    exact hc hfree
  constructor <;> dsimp only
  · simpa [List.nodup_append, hnew] using ⟨h.nodup, fun a ha heq => hnew (heq ▸ ha)⟩
  · intro s x hs
    rcases Nat.lt_or_ge s t.keys.length with hlt | hge
    · rw [List.getElem?_append_left hlt] at hs
      obtain ⟨j, hj, hpre⟩ := h.path s x hs
      refine ⟨j, ?_, fun i hi => ?_⟩
      · rw [hkeep _ (by simp [hj]), hj]
      · rw [hkeep _ (hpre i hi)]
        exact hpre i hi
    · obtain ⟨hlen, rfl⟩ : s = t.keys.length ∧ key = x := by grind
      refine ⟨k, by rw [hlen, update_self], fun i hi => ?_⟩
      rw [hkeep _ (hpath i hi)]
      exact hpath i hi
  · intro c s hc
    have := h.lt c s
    grind [update_apply]
  · intro c c' s hc hc'
    have := h.lt c s
    have := h.lt c' s
    have := h.inj c c' s
    grind [update_apply]

variable [DecidableEq κ]

/-- The number of a key, which is added when it is new: at most `rounds` cells are looked at. -/
def probe (n : Nat) (t : ProbeTable κ) (key : κ) : Nat → Nat → Option (Nat × ProbeTable κ)
  | 0, _ => none
  | rounds + 1, h =>
    match t.cell h with
    | none =>
      some (t.keys.length, ⟨Function.update t.cell h (some t.keys.length), t.keys ++ [key]⟩)
    | some s =>
      if t.keys[s]? = some key then some (s, t) else probe n t key rounds ((h + 1) % n)

/-- The loop passes over the cells of other keys. -/
lemma probe_skip {k rounds h : Nat} (hk : k < rounds) (hh : h < n)
    (hskip : ∀ i < k, ∃ s, t.cell ((h + i) % n) = some s ∧ t.keys[s]? ≠ some key) :
    t.probe n key rounds h = t.probe n key (rounds - k) ((h + k) % n) := by
  induction k generalizing rounds h with
  | zero => simp [Nat.mod_eq_of_lt hh]
  | succ k ih =>
    obtain ⟨rounds, rfl⟩ := Nat.exists_eq_add_of_le' (Nat.one_le_of_lt hk)
    obtain ⟨s, hcell, hne⟩ := hskip 0 (by omega)
    rw [Nat.add_zero, Nat.mod_eq_of_lt hh] at hcell
    have hshift : ∀ i, ((h + 1) % n + i) % n = (h + (i + 1)) % n := fun i => by
      rw [Nat.mod_add_mod, Nat.add_assoc, Nat.add_comm 1]
    rw [probe, hcell]
    simp only [hne, if_false]
    rw [ih (by omega) (Nat.mod_lt _ (by omega)) fun i hi => by
      rw [hshift]; exact hskip (i + 1) (by omega), hshift, Nat.add_sub_add_right]

/-- A key is found under its number, or takes the next one, before the cells run out. -/
lemma Probed.probe (h : Probed n hash t) (hhash : hash key < n) (hlt : t.keys.length < n) :
    ∃ s t', t.probe n key n (hash key) = some (s, t') ∧ Probed n hash t' ∧
      t'.keys[s]? = some key ∧ t'.keys = if key ∈ t.keys then t.keys else t.keys ++ [key] := by
  -- The first cell that is free or holds the key.
  have hstop : ∃ k, k < n ∧ ∀ s, t.cell ((hash key + k) % n) = some s → t.keys[s]? = some key := by
    obtain ⟨k, hk, hfree⟩ := h.exists_free hlt (hash key)
    exact ⟨k, hk, by simp [hfree]⟩
  classical
  obtain ⟨k, ⟨hk, hcell⟩, hfirst⟩ : ∃ k, (k < n ∧ ∀ s, t.cell ((hash key + k) % n) = some s →
      t.keys[s]? = some key) ∧ ∀ i < k, ∃ s, t.cell ((hash key + i) % n) = some s ∧
      t.keys[s]? ≠ some key := by
    refine ⟨Nat.find hstop, Nat.find_spec hstop, fun i hi => ?_⟩
    have := Nat.find_min hstop hi
    grind
  rw [probe_skip hk hhash hfirst]
  obtain ⟨rounds, hrounds⟩ := Nat.exists_eq_add_of_le' (Nat.sub_pos_of_lt hk)
  rw [hrounds, ProbeTable.probe]
  cases hc : t.cell ((hash key + k) % n) with
  | none =>
    have hnew : key ∉ t.keys := by
      intro hmem
      obtain ⟨s, hs⟩ := List.mem_iff_getElem?.mp hmem
      obtain ⟨j, hj, hpre⟩ := h.path s key hs
      have := hfirst j
      grind
    refine ⟨_, _, rfl, h.push hnew hc fun i hi => ?_, by simp, by simp [hnew]⟩
    obtain ⟨s, hs, -⟩ := hfirst i hi
    simp [hs]
  | some s =>
    have hs := hcell s hc
    exact ⟨s, t, by simp [hs], h, hs, by simp [List.mem_of_getElem? hs]⟩

end ProbeTable

end MyQuic2
