import MyQuic2.Core.Bytes

/-!
# Writing a batch of segments

A batch of received segments goes to the socket by vectored writes, each of which
may take any part of what it is offered. A cursor, the segments not yet written
and an offset into the first of them, moves on by what was taken.
-/

namespace MyQuic2

open List

/-- Segments per batch. -/
def copyBatch : Nat := 8

namespace Vectored

/-- Step over segments that are written, empty ones included. -/
def skipDone : List Bytes → Nat → List Bytes × Nat
  | [], off => ([], off)
  | b :: rest, off => if b.length ≤ off then skipDone rest 0 else (b :: rest, off)

section

variable (rest : List Bytes) (off : Nat)

/-- What one vectored write is offered. -/
def slices : List Bytes :=
  ((rest.take copyBatch).zipIdx.map fun p =>
    if p.2 = 0 then p.1.drop (min off p.1.length) else p.1).filter fun s => !s.isEmpty

/-- Move on by the bytes that a write took. -/
def advance : List Bytes → Nat → Nat → List Bytes × Nat
  | [], off, _ => ([], off)
  | b :: rest, off, left =>
    let avail := b.length - off
    if left < avail then (b :: rest, off + left)
    else if left - avail = 0 then (rest, 0)
    else advance rest 0 (left - avail)

/-- The cursor of the next write; none when the batch is written. -/
def nextWrite : Option (List Bytes × Nat) :=
  match skipDone rest off with
  | ([], _) => none
  | (b :: rest, off) => if (slices (b :: rest) off).isEmpty then none else some (b :: rest, off)

/-- What is not yet written. -/
def unwritten : Bytes := rest.flatten.drop off

/-- The offset lies in the first segment. -/
def Valid : Prop := ∀ b ∈ rest.head?, off ≤ b.length

lemma valid_zero : Valid rest 0 := fun _ _ => Nat.zero_le _

lemma unwritten_nil : unwritten [] off = [] := drop_nil

end

variable {off : Nat} {rest : List Bytes}

lemma unwritten_cons {b : Bytes} (h : off ≤ b.length) :
    unwritten (b :: rest) off = b.drop off ++ unwritten rest 0 := by
  rw [unwritten, flatten_cons, drop_append_of_le_length h, unwritten, drop_zero]

lemma skipDone_spec (h : Valid rest off) :
    unwritten (skipDone rest off).1 (skipDone rest off).2 = unwritten rest off ∧
      ∀ b ∈ (skipDone rest off).1.head?, (skipDone rest off).2 < b.length := by
  induction rest generalizing off with
  | nil => exact ⟨rfl, nofun⟩
  | cons b rest ih =>
    have hoff : off ≤ b.length := h b rfl
    unfold skipDone
    split
    · rename_i hdone
      obtain ⟨hsame, hlt⟩ := ih (valid_zero rest)
      refine ⟨?_, hlt⟩
      rw [hsame, unwritten_cons hoff, drop_of_length_le hdone, nil_append]
    rename_i hleft
    refine ⟨rfl, fun b' hb' => ?_⟩
    cases hb'
    exact Nat.lt_of_not_le hleft

lemma flatten_filter_nonempty (l : List Bytes) :
    (l.filter fun s => !s.isEmpty).flatten = l.flatten := by
  induction l with
  | nil => rfl
  | cons s l ih =>
    cases s with
    | nil =>
      rw [filter_cons_of_neg (by simp), ih]
      rfl
    | cons x s => rw [filter_cons_of_pos (by simp), flatten_cons, ih, flatten_cons]

variable (h : Valid rest off)
include h

/-- A write is offered leading bytes of what is left. -/
lemma flatten_slices_prefix : (slices rest off).flatten <+: unwritten rest off := by
  unfold slices
  rw [flatten_filter_nonempty]
  cases rest with
  | nil => exact nil_prefix
  | cons b rest =>
    have hoff : off ≤ b.length := h b rfl
    have htail : ∀ (l : List Bytes) (i : Nat), 0 < i →
        ((l.zipIdx i).map fun p => if p.2 = 0 then p.1.drop (min off p.1.length) else p.1) =
          l := by
      intro l
      induction l with
      | nil => exact fun _ _ => rfl
      | cons x l ih =>
        intro i hi
        rw [zipIdx_cons, map_cons, ih (i + 1) (Nat.succ_pos i), if_neg (Nat.pos_iff_ne_zero.mp hi)]
    rw [copyBatch, take_succ_cons, zipIdx_cons, map_cons, htail _ _ Nat.one_pos,
      if_pos rfl, Nat.min_eq_left hoff, flatten_cons, unwritten_cons hoff]
    refine prefix_append_right_inj _ |>.mpr ?_
    rw [unwritten, drop_zero]
    exact ⟨(rest.drop 7).flatten, by rw [← flatten_append, take_append_drop]⟩

lemma advance_spec {left : Nat} (hleft : left ≤ (unwritten rest off).length) :
    unwritten (advance rest off left).1 (advance rest off left).2 =
        (unwritten rest off).drop left ∧
      Valid (advance rest off left).1 (advance rest off left).2 := by
  induction rest generalizing off left with
  | nil =>
    refine ⟨?_, nofun⟩
    rw [advance, unwritten_nil, drop_nil]
  | cons b rest ih =>
    have hoff : off ≤ b.length := h b rfl
    have hlen : (b.drop off).length = b.length - off := length_drop
    rw [unwritten_cons hoff, length_append, hlen] at hleft
    rw [unwritten_cons hoff]
    unfold advance
    dsimp only
    split
    · rename_i hinside
      have hle : off + left ≤ b.length := by omega
      refine ⟨?_, fun b' hb' => ?_⟩
      · rw [unwritten_cons hle, drop_append_of_le_length (by omega), drop_drop]
      · cases hb'
        exact hle
    rename_i hpast
    split
    · rename_i hend
      have heq : left = (b.drop off).length := by omega
      refine ⟨?_, valid_zero rest⟩
      rw [heq, drop_left]
    have hbound : left - (b.length - off) ≤ (unwritten rest 0).length := by omega
    obtain ⟨hrest, hvalid⟩ := ih (valid_zero rest) hbound
    have hgone : (b.drop off).drop left = [] := drop_of_length_le (by omega)
    refine ⟨?_, hvalid⟩
    rw [hrest, drop_append, hlen, hgone, nil_append]

/-- There is no next write only at the end of the batch. -/
lemma unwritten_of_nextWrite_eq_none (hnone : nextWrite rest off = none) :
    unwritten rest off = [] := by
  obtain ⟨hsame, hlt⟩ := skipDone_spec h
  rw [← hsame]
  unfold nextWrite at hnone
  obtain ⟨⟨rest', off'⟩, hskip⟩ : ∃ found, skipDone rest off = found := ⟨_, rfl⟩
  rw [hskip] at hnone hlt ⊢
  cases rest' with
  | nil => exact unwritten_nil off'
  | cons b rest' =>
    -- The first segment has bytes left, so that the write is offered something.
    have hoff : off' < b.length := hlt b rfl
    dsimp only at hnone
    split at hnone
    · rename_i hempty
      rw [List.isEmpty_iff, slices, List.filter_eq_nil_iff] at hempty
      have hfirst := hempty (b.drop (min off' b.length)) (by
        rw [copyBatch, List.take_succ_cons, List.zipIdx_cons, List.map_cons, if_pos rfl]
        exact mem_cons_self)
      have hnil : b.drop (min off' b.length) = [] := by
        rw [Bool.not_eq_true', Bool.not_eq_false, List.isEmpty_iff] at hfirst
        exact hfirst
      have := List.drop_eq_nil_iff.mp hnil
      omega
    · cases hnone

/-- The next write starts where the last one ended. -/
lemma unwritten_of_nextWrite_eq_some {rest' : List Bytes} {off' : Nat}
    (hsome : nextWrite rest off = some (rest', off')) :
    unwritten rest' off' = unwritten rest off ∧ Valid rest' off' := by
  obtain ⟨hsame, hlt⟩ := skipDone_spec h
  unfold nextWrite at hsome
  obtain ⟨⟨found, foundOff⟩, hskip⟩ : ∃ found, skipDone rest off = found := ⟨_, rfl⟩
  rw [hskip] at hsome hlt hsame
  cases found with
  | nil => cases hsome
  | cons b found =>
    dsimp only at hsome
    split at hsome
    · cases hsome
    · cases hsome
      exact ⟨hsame, fun b' hb' => Nat.le_of_lt (hlt b' hb')⟩

end Vectored

end MyQuic2
