import Mathlib.Algebra.Order.Ring.Nat
import Mathlib.Data.List.AList
import Mathlib.Data.List.Perm.Basic

/-!
# Finite maps, vectors and queues by key

The tables of the program are hash maps. They are modelled as association lists
without repeated keys; nothing depends on the order of the entries. Growable arrays
are modelled as lists. What waits in a map of queues is, as a bag, determined by the
queues, so that an operation is described by what it does to each of them.
-/

namespace MyQuic2

open List AList

/-- A finite map. -/
abbrev Map (κ ν : Type) := AList fun _ : κ => ν

namespace Map

variable {κ ν : Type}

section

variable (m : Map κ ν) (keep : κ → ν → Bool)

/-- Number of entries. -/
def size : Nat := m.entries.length

/-- Keep the entries that pass a test. -/
def retain : Map κ ν :=
  ⟨m.entries.filter fun e => keep e.1 e.2, m.nodupKeys.sublist filter_sublist⟩

/-- Change the value of every entry. -/
def mapValues (f : κ → ν → ν) : Map κ ν where
  entries := m.entries.map fun e => ⟨e.1, f e.1 e.2⟩
  nodupKeys := by
    have hkeys : (m.entries.map fun e => (⟨e.1, f e.1 e.2⟩ : Sigma fun _ : κ => ν)).keys =
        m.entries.keys := by
      simp only [List.keys, map_map]
      rfl
    rw [List.NodupKeys, hkeys]
    exact m.nodupKeys

/-- Number of keys that pass a test. -/
def countKeys (p : κ → Bool) : Nat := m.keys.countP p

lemma size_eq_length_keys : m.size = m.keys.length :=
  (length_map _).symm

end

variable [DecidableEq κ]

lemma lookup_retain (m : Map κ ν) (keep : κ → ν → Bool) (k : κ) :
    (m.retain keep).lookup k = (m.lookup k).filter (keep k) := by
  apply Option.ext
  intro v
  rw [Option.filter_eq_some_iff]
  have hkept := mem_lookup_iff (a := k) (b := v) (s := m.retain keep)
  have hall := mem_lookup_iff (a := k) (b := v) (s := m)
  rw [Option.mem_def] at hkept hall
  rw [hkept, hall]
  exact mem_filter

lemma lookup_mapValues (m : Map κ ν) (f : κ → ν → ν) (k : κ) :
    (m.mapValues f).lookup k = (m.lookup k).map (f k) := by
  apply Option.ext
  intro v
  rw [Option.map_eq_some_iff]
  have hnew := mem_lookup_iff (a := k) (b := v) (s := m.mapValues f)
  rw [Option.mem_def] at hnew
  rw [hnew]
  constructor
  · intro h
    obtain ⟨⟨k', v'⟩, hmem, heq⟩ := mem_map.mp h
    cases heq
    exact ⟨v', mem_lookup_iff.mpr hmem, rfl⟩
  · rintro ⟨v', hv', rfl⟩
    exact mem_map.mpr ⟨⟨k, v'⟩, mem_lookup_iff.mp hv', rfl⟩

variable {k : κ} {m : Map κ ν} {v : ν}

lemma keys_insert_of_lookup_eq_none (h : m.lookup k = none) :
    (m.insert k v).keys = k :: m.keys := by
  rw [keys_insert, erase_of_not_mem (lookup_eq_none.mp h)]

lemma size_insert_of_lookup_eq_none (h : m.lookup k = none) (v : ν) :
    size (m.insert k v) = m.size + 1 := by
  rw [size_eq_length_keys, size_eq_length_keys, keys_insert_of_lookup_eq_none h, length_cons]

lemma lookup_insert_cases {k' : κ} {v' : ν} (h : (m.insert k v).lookup k' = some v') :
    (k' = k ∧ v' = v) ∨ (k' ≠ k ∧ m.lookup k' = some v') := by
  by_cases hk : k' = k
  · subst hk
    rw [lookup_insert, Option.some.injEq] at h
    exact .inl ⟨rfl, h.symm⟩
  · rw [lookup_insert_ne hk] at h
    exact .inr ⟨hk, h⟩

lemma lookup_erase_iff {k' : κ} {v' : ν} :
    (m.erase k).lookup k' = some v' ↔ k' ≠ k ∧ m.lookup k' = some v' := by
  by_cases hk : k' = k
  · rw [hk, lookup_erase]
    exact ⟨nofun, fun h => absurd rfl h.1⟩
  · rw [lookup_erase_ne hk]
    exact ⟨fun h => ⟨hk, h⟩, And.right⟩

lemma size_erase_le (m : Map κ ν) (k : κ) : size (m.erase k) ≤ m.size := by
  rw [size_eq_length_keys, size_eq_length_keys, keys_erase]
  exact length_erase_le

lemma countKeys_insert_of_lookup_eq_none (h : m.lookup k = none) (v : ν) (p : κ → Bool) :
    countKeys (m.insert k v) p = m.countKeys p + if p k then 1 else 0 := by
  rw [countKeys, keys_insert_of_lookup_eq_none h, countP_cons, countKeys]

lemma countKeys_erase (h : m.lookup k = some v) (p : κ → Bool) :
    m.countKeys p = countKeys (m.erase k) p + if p k then 1 else 0 := by
  have hmem : k ∈ m.keys := lookup_isSome.mp (by rw [h]; rfl)
  rw [countKeys, (perm_cons_erase hmem).countP_eq, countP_cons, countKeys, keys_erase]

lemma forall_lookup_iff (P : κ → ν → Prop) :
    (∀ e ∈ m.entries, P e.1 e.2) ↔ ∀ k v, m.lookup k = some v → P k v := by
  constructor
  · intro h k v hv
    exact h ⟨k, v⟩ (mem_lookup_iff.mp hv)
  · intro h e he
    exact h e.1 e.2 (mem_lookup_iff.mpr he)

/-- What the values weigh together. -/
def total (m : Map κ ν) (weight : ν → Nat) : Nat := (m.entries.map fun e => weight e.2).sum

lemma perm_erase_of_lookup (h : m.lookup k = some v) :
    m.entries.Perm (⟨k, v⟩ :: (m.erase k).entries) := by
  have hmem : (⟨k, v⟩ : Sigma fun _ => ν) ∈ m.entries := mem_lookup_iff.mp h
  obtain ⟨v', before, behind, hnot, hall, herase⟩ :=
    exists_of_kerase (mem_map_of_mem (f := Sigma.fst) hmem)
  have hsame : v = v' := by
    have hmem' : (⟨k, v'⟩ : Sigma fun _ => ν) ∈ m.entries := by
      rw [hall]
      simp
    exact NodupKeys.eq_of_mk_mem m.nodupKeys hmem hmem'
  change m.entries.Perm (⟨k, v⟩ :: List.kerase k m.entries)
  rw [herase, hall, hsame]
  exact perm_middle

lemma total_erase (h : m.lookup k = some v) (weight : ν → Nat) :
    m.total weight = weight v + total (m.erase k) weight := by
  have hperm := ((perm_erase_of_lookup h).map fun e => weight e.2).sum_nat
  rwa [map_cons, sum_cons] at hperm

lemma total_insert (m : Map κ ν) (k : κ) (v : ν) (weight : ν → Nat) :
    total (m.insert k v) weight = weight v + total (m.erase k) weight := by
  rfl

omit [DecidableEq κ] in
lemma total_retain (m : Map κ ν) (drop : κ → ν → Bool) (weight : ν → Nat) :
    m.total weight = total (m.retain fun k v => !drop k v) weight +
      ((m.entries.filter fun e => drop e.1 e.2).map fun e => weight e.2).sum := by
  have hparts : ∀ l : List (Sigma fun _ : κ => ν), (l.map fun e => weight e.2).sum =
      ((l.filter fun e => !drop e.1 e.2).map fun e => weight e.2).sum +
        ((l.filter fun e => drop e.1 e.2).map fun e => weight e.2).sum := by
    intro l
    induction l with
    | nil => rfl
    | cons e l ih =>
      cases hdrop : drop e.1 e.2 <;> simp [hdrop, ih] <;> omega
  exact hparts m.entries

lemma total_le {weight : ν → Nat} {bound : Nat}
    (h : ∀ k v, m.lookup k = some v → weight v ≤ bound) : m.total weight ≤ m.size * bound := by
  have hall : ∀ e ∈ m.entries, weight e.2 ≤ bound := (m.forall_lookup_iff fun _ v => _).mpr h
  rw [total, size]
  generalize m.entries = l at hall
  induction l with
  | nil => simp
  | cons e l ih =>
    have hhead := hall e (mem_cons_self ..)
    have htail := ih fun e he => hall e (mem_cons_of_mem _ he)
    rw [map_cons, sum_cons, length_cons, Nat.add_mul, Nat.one_mul]
    omega

lemma size_erase (h : m.lookup k = some v) : m.size = size (m.erase k) + 1 := by
  simpa [size] using (perm_erase_of_lookup h).length_eq

lemma size_insert_of_lookup (h : m.lookup k = some v) (v' : ν) : size (m.insert k v') = m.size := by
  rw [size_erase h, size, entries_insert, length_cons]
  rfl

lemma size_insert_le (m : Map κ ν) (k : κ) (v : ν) : size (m.insert k v) ≤ m.size + 1 := by
  cases h : m.lookup k with
  | none => exact (size_insert_of_lookup_eq_none h v).le
  | some w => exact (size_insert_of_lookup h v).le.trans (Nat.le_succ _)

lemma erase_of_lookup_eq_none (h : m.lookup k = none) : m.erase k = m :=
  AList.ext (kerase_of_notMem_keys (lookup_eq_none.mp h))

omit [DecidableEq κ] in
lemma size_retain_le (m : Map κ ν) (keep : κ → ν → Bool) : size (m.retain keep) ≤ m.size :=
  length_filter_le _ _

instance (m : Map κ ν) (P : κ → ν → Prop) [∀ k v, Decidable (P k v)] :
    Decidable (∀ k v, m.lookup k = some v → P k v) :=
  decidable_of_iff _ (m.forall_lookup_iff P)

end Map

variable {α : Type}

/-- Put the last element in place of the one at a position. -/
def swapRemove (l : List α) (pos : Nat) : List α :=
  match l.getLast? with
  | none => []
  | some last => (l.set pos last).dropLast

lemma swapRemove_perm_eraseIdx {l : List α} {pos : Nat} (h : pos < l.length) :
    (swapRemove l pos).Perm (l.eraseIdx pos) := by
  obtain ⟨init, last, rfl⟩ : ∃ init last, l = init ++ [last] :=
    ⟨_, _, (dropLast_append_getLast (ne_nil_of_length_pos (by omega))).symm⟩
  rw [swapRemove, getLast?_concat]
  dsimp only
  rw [length_append, length_singleton] at h
  by_cases hpos : pos < init.length
  · rw [set_append_left _ _ hpos, dropLast_concat, set_eq_take_cons_drop _ hpos,
      eraseIdx_append_of_lt_length hpos, eraseIdx_eq_take_drop_succ, append_assoc]
    exact (perm_append_singleton last _).symm.append_left _
  have hend : pos = init.length := by omega
  subst hend
  rw [set_append_right _ _ (Nat.le_refl _), Nat.sub_self, set_cons_zero, dropLast_concat,
    eraseIdx_append_of_length_le (Nat.le_refl _), Nat.sub_self, eraseIdx_cons_zero, append_nil]

lemma swapRemove_perm [DecidableEq α] {l : List α} {a : α} (h : a ∈ l) :
    (swapRemove l (l.idxOf a)).Perm (l.erase a) := by
  rw [← eraseIdx_idxOf_eq_erase]
  exact swapRemove_perm_eraseIdx (idxOf_lt_length_iff.mpr h)

namespace Map

variable {κ α : Type} [DecidableEq κ]

/-- The queue of a key. -/
def queue (m : Map κ (List α)) (k : κ) : List α := (m.lookup k).getD []

/-- Everything that waits. -/
def contents (m : Map κ (List α)) : List α := m.entries.flatMap fun e => e.2

/-- Every element waits in the queue of its key. -/
def Keyed (key : α → κ) (m : Map κ (List α)) : Prop := ∀ k, ∀ x ∈ m.queue k, key x = k

variable {key : α → κ} {m m' : Map κ (List α)}

section

variable (m : Map κ (List α)) (k k' : κ) (q : List α)

lemma queue_insert : Map.queue (m.insert k q) k' = if k' = k then q else m.queue k' := by
  unfold queue
  by_cases h : k' = k
  · rw [if_pos h, h, lookup_insert]
    rfl
  · rw [if_neg h, lookup_insert_ne h]

lemma queue_erase : Map.queue (m.erase k) k' = if k' = k then [] else m.queue k' := by
  unfold queue
  by_cases h : k' = k
  · rw [if_pos h, h, lookup_erase]
    rfl
  · rw [if_neg h, lookup_erase_ne h]

lemma queue_mapValues (f : List α → List α) (hf : f [] = []) (k : κ) :
    (m.mapValues fun _ q => f q).queue k = f (m.queue k) := by
  unfold queue
  rw [lookup_mapValues]
  cases m.lookup k with
  | none => exact hf.symm
  | some q => rfl

end

lemma mem_contents {x : α} : x ∈ m.contents ↔ ∃ k, x ∈ m.queue k := by
  unfold contents queue
  rw [mem_flatMap]
  constructor
  · rintro ⟨⟨k, q⟩, he, hx⟩
    refine ⟨k, ?_⟩
    rw [mem_lookup_iff.mpr he]
    exact hx
  rintro ⟨k, hx⟩
  cases hq : m.lookup k with
  | none =>
    rw [hq] at hx
    cases hx
  | some q =>
    rw [hq] at hx
    exact ⟨⟨k, q⟩, mem_lookup_iff.mp hq, hx⟩

lemma mem_keys_of_mem_queue {k : κ} {x : α} (h : x ∈ m.queue k) : k ∈ m.keys := by
  unfold queue at h
  cases hq : m.lookup k with
  | none =>
    rw [hq] at h
    cases h
  | some q => exact mem_keys.mp (lookup_isSome.mp (by rw [hq]; rfl))

lemma count_contents [DecidableEq α] (h : Keyed key m) (x : α) :
    m.contents.count x = (m.queue (key x)).count x := by
  obtain ⟨entries, hnodup⟩ := m
  unfold contents queue AList.lookup
  have hkeyed : ∀ e ∈ entries, ∀ y ∈ e.2, key y = e.1 := by
    intro e he y hy
    refine h e.1 y ?_
    unfold queue
    rw [mem_lookup_iff.mpr he]
    exact hy
  clear h
  induction entries with
  | nil => rfl
  | cons e entries ih =>
    obtain ⟨k, q⟩ := e
    obtain ⟨hfresh, hnodup'⟩ := nodupKeys_cons.mp hnodup
    have hrest := ih hnodup' fun e he => hkeyed e (mem_cons_of_mem _ he)
    rw [flatMap_cons, count_append, hrest]
    by_cases hk : k = key x
    · -- The queue of the key comes first, and no other one holds the element.
      subst hk
      rw [dlookup_cons_eq, dlookup_eq_none.mpr hfresh]
      exact Nat.add_zero _
    · rw [dlookup_cons_ne _ _ (Ne.symm hk), count_eq_zero.mpr, Nat.zero_add]
      intro hx
      exact hk (hkeyed ⟨k, q⟩ mem_cons_self x hx).symm

lemma count_filter_key [DecidableEq α] (l : List α) {k : κ} {x : α} (hx : key x = k) :
    (l.filter fun y => key y = k).count x = l.count x :=
  count_filter (decide_eq_true hx)

lemma filter_contents_perm [DecidableEq α] (h : Keyed key m) (k : κ) :
    (m.contents.filter fun x => key x = k).Perm (m.queue k) := by
  refine perm_iff_count.mpr fun x => ?_
  by_cases hx : key x = k
  · rw [count_filter_key _ hx, count_contents h, hx]
  rw [count_eq_zero.mpr, count_eq_zero.mpr]
  · exact fun hmem => hx (h k x hmem)
  · exact fun hmem => hx (of_decide_eq_true (mem_filter.mp hmem).2)

/-- What the queues of one map hold beyond those of another, all of it holds beyond the other. -/
lemma contents_perm_append [DecidableEq α] (hm : Keyed key m) (hm' : Keyed key m') {l : List α}
    (h : ∀ k, (m.queue k).Perm (l.filter (fun x => key x = k) ++ m'.queue k)) :
    m.contents.Perm (l ++ m'.contents) := by
  refine perm_iff_count.mpr fun x => ?_
  rw [count_contents hm, (h (key x)).count_eq, count_append, count_append,
    count_contents hm', count_filter_key l rfl]

end Map

end MyQuic2
