import MyQuic2.Mqp.FlowRegistry

/-!
# Whole calls of the flow registry

When nothing runs between the two sections of a purge, it removes the bindings of
its sessions and no others.
-/

namespace MyQuic2

open List AList

namespace FlowRegistry

variable {r : FlowRegistry}

lemma lookup_remove {wireId id : UInt32} {b : FlowBinding}
    (hb : (r.remove wireId).2.map.lookup id = some b) : id ≠ wireId ∧ r.map.lookup id = some b := by
  unfold remove at hb
  cases hold : r.map.lookup wireId with
  | none =>
    rw [hold] at hb
    refine ⟨?_, hb⟩
    rintro rfl
    exact absurd (hb.symm.trans hold) nofun
  | some b' =>
    rw [hold] at hb
    exact Map.lookup_erase_iff.mp hb

lemma lookup_remove_of_ne {wireId id : UInt32} (hne : id ≠ wireId) :
    (r.remove wireId).2.map.lookup id = r.map.lookup id := by
  unfold remove
  cases r.map.lookup wireId with
  | none => rfl
  | some b => exact lookup_erase_ne hne

section

variable (r : FlowRegistry) (sessions : List UInt32)

/-- Remove the bindings of some sessions. -/
def removeSessions : List (UInt32 × FlowBinding) × FlowRegistry :=
  (r.takeSessions sessions).2.purge (r.takeSessions sessions).1

def removeSession (session : UInt32) : List (UInt32 × FlowBinding) × FlowRegistry :=
  (r.takeSession session).2.purge ((r.takeSession session).1.getD [])

lemma removeSession_eq (session : UInt32) :
    r.removeSession session = r.removeSessions [session] := by
  change _ = (r.takeSession session).2.purge ((r.takeSession session).1.getD [] ++ [])
  rw [append_nil]
  rfl

lemma map_takeSessions : (r.takeSessions sessions).2.map = r.map := by
  induction sessions generalizing r with
  | nil => rfl
  | cons session sessions ih => exact ih (r.takeSession session).2

end

lemma fst_mem_of_mem_takeSessions {sessions : List UInt32} {x : UInt32 × UInt32}
    (h : x ∈ (r.takeSessions sessions).1) : x.1 ∈ sessions := by
  induction sessions generalizing r with
  | nil => cases h
  | cons session sessions ih =>
    rcases mem_append.mp h with hx | hx
    · rw [(mem_takeSession.mp hx).1]
      exact mem_cons_self
    · exact mem_cons_of_mem _ (ih hx)

lemma not_mem_of_mem_listed_takeSessions {sessions : List UInt32} {session id : UInt32}
    (h : id ∈ (r.takeSessions sessions).2.listed session) : session ∉ sessions := by
  have hlisted : ∀ {r : FlowRegistry} {sessions : List UInt32},
      id ∈ (r.takeSessions sessions).2.listed session →
        id ∈ r.listed session ∧ session ∉ sessions := by
    intro r sessions h
    induction sessions generalizing r with
    | nil => exact ⟨h, not_mem_nil⟩
    | cons first sessions ih =>
      obtain ⟨hlisted, hrest⟩ := ih h
      obtain ⟨hlisted, hfirst⟩ := mem_listed_takeSession.mp hlisted
      exact ⟨hlisted, not_mem_cons_of_ne_of_not_mem hfirst hrest⟩
  exact (hlisted h).2

lemma lookup_purge (taken : List (UInt32 × UInt32)) (id : UInt32) :
    (r.purge taken).2.map.lookup id =
      if id ∈ taken.map Prod.snd then none else r.map.lookup id := by
  induction taken generalizing r with
  | nil => rfl
  | cons x taken ih =>
    obtain ⟨session, wireId⟩ := x
    unfold purge
    simp only [map_cons, mem_cons]
    cases hb : r.map.lookup wireId with
    | none =>
      rw [ih]
      by_cases hid : id = wireId
      · rw [if_pos (Or.inl hid), hid, hb, ite_self]
      · simp only [hid, false_or]
    | some b =>
      rw [ih]
      by_cases hid : id = wireId
      · rw [if_pos (Or.inl hid), hid, lookup_erase, ite_self]
      · simp only [hid, false_or, lookup_erase_ne hid]

lemma lookup_of_mem_purge {taken : List (UInt32 × UInt32)} {c : UInt32 × FlowBinding}
    (h : c ∈ (r.purge taken).1) :
    c.1 ∈ taken.map Prod.fst ∧ ∃ id b, r.map.lookup id = some b ∧ c.2 = b.markClosed := by
  induction taken generalizing r with
  | nil => cases h
  | cons x taken ih =>
    obtain ⟨session, wireId⟩ := x
    unfold purge at h
    cases hb : r.map.lookup wireId with
    | none =>
      rw [hb] at h
      obtain ⟨hsession, hbound⟩ := ih h
      exact ⟨mem_cons_of_mem _ hsession, hbound⟩
    | some b =>
      rw [hb] at h
      rcases mem_cons.mp h with rfl | h
      · exact ⟨mem_cons_self, wireId, b, hb, rfl⟩
      obtain ⟨hsession, id, b', hb', hc⟩ := ih h
      exact ⟨mem_cons_of_mem _ hsession, id, b', (Map.lookup_erase_iff.mp hb').2, hc⟩

/-- What the purge of some sessions leaves and closes. -/
structure Purges (r : FlowRegistry) (sessions : List UInt32)
    (out : List (UInt32 × FlowBinding) × FlowRegistry) : Prop where
  indexed : out.2.Indexed []
  kept : ∀ id b, out.2.map.lookup id = some b ↔ r.map.lookup id = some b ∧ b.session ∉ sessions
  closed : ∀ c ∈ out.1, ∃ b, r.map.lookup c.2.wireId = some b ∧ b.session ∈ sessions

lemma Indexed.removeSessions (h : r.Indexed []) (sessions : List UInt32) :
    r.Purges sessions (r.removeSessions sessions) := by
  have htaken := h.takeSessions sessions
  rw [nil_append] at htaken
  have hheld : ∀ x ∈ (r.takeSessions sessions).1, ∃ p ∈ [(r.takeSessions sessions).1], x ∈ p :=
    fun x hx => ⟨_, mem_singleton_self _, hx⟩
  obtain ⟨hindexed, hgone, hsession⟩ := htaken.purge hheld
  refine ⟨?_, fun id b => ?_, fun c hc => ?_⟩
  · refine hindexed.forget (i := 0) fun x hx => ?_
    exact hgone x.2 (Or.inr (mem_map_of_mem hx))
  · unfold FlowRegistry.removeSessions
    rw [lookup_purge, map_takeSessions]
    constructor
    · intro hb
      split at hb
      · cases hb
      rename_i hfree
      refine ⟨hb, fun hmem => ?_⟩
      rw [← map_takeSessions r sessions] at hb
      rcases htaken.complete id b hb with hlisted | ⟨p, hp, hx⟩
      · exact not_mem_of_mem_listed_takeSessions hlisted hmem
      · rw [mem_singleton.mp hp] at hx
        exact hfree (mem_map_of_mem hx)
    · rintro ⟨hb, hsessions⟩
      rw [if_neg, hb]
      intro hmem
      obtain ⟨x, hx, rfl⟩ := mem_map.mp hmem
      have hheld := (htaken.held _ (mem_singleton_self _) x hx).1 b
        (by rw [map_takeSessions]; exact hb)
      rw [hheld] at hsessions
      exact hsessions (fst_mem_of_mem_takeSessions hx)
  · obtain ⟨hfst, id, b, hb, hc2⟩ := lookup_of_mem_purge hc
    have hname := htaken.named id b hb
    have hown := hsession c hc
    rw [map_takeSessions] at hb
    refine ⟨b, ?_, ?_⟩
    · rw [hc2]
      change r.map.lookup b.wireId = some b
      rw [hname]
      exact hb
    · obtain ⟨x, hx, hx1⟩ := mem_map.mp hfst
      have hb2 : b.session = c.1 := by
        rw [← hown, hc2]
        rfl
      rw [hb2, ← hx1]
      exact fst_mem_of_mem_takeSessions hx

end FlowRegistry

end MyQuic2
