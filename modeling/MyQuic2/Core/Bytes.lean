import Mathlib.Algebra.Order.Ring.Nat

/-!
# Byte strings, fixed-width words and reading at an offset

Machine words are laid out as lists of octets in either byte order, and both
directions of the layout are inverse. A decoder that walks a buffer by offsets
is described by `Rest`: what is left of the buffer from the current offset on.
Every read of the library states how it moves that remainder.
-/

namespace MyQuic2

open List Option

/-- An octet string. -/
abbrev Bytes := List UInt8

/-- The `w` least significant octets of `n`, least significant first. -/
def leBytes : Nat → Nat → Bytes
  | 0, _ => []
  | w + 1, n => UInt8.ofNat n :: leBytes w (n / 256)

/-- The value of an octet string read least significant octet first. -/
def ofLeBytes : Bytes → Nat
  | [] => 0
  | b :: bs => b.toNat + 256 * ofLeBytes bs

/-- The `w` least significant octets of `n`, most significant first. -/
def beBytes (w n : Nat) : Bytes := (leBytes w n).reverse

/-- The value of an octet string read most significant octet first. -/
def ofBeBytes (bs : Bytes) : Nat := ofLeBytes bs.reverse

@[simp] lemma length_leBytes (w n : Nat) : (leBytes w n).length = w := by
  induction w generalizing n with
  | zero => rfl
  | succ w ih => simp only [leBytes, length_cons, ih]

@[simp] lemma length_beBytes (w n : Nat) : (beBytes w n).length = w := by
  simp only [beBytes, length_reverse, length_leBytes]

/-- Reading a written word back keeps exactly the octets that were written. -/
lemma ofLeBytes_leBytes (w n : Nat) : ofLeBytes (leBytes w n) = n % 256 ^ w := by
  induction w generalizing n with
  | zero => simp [leBytes, ofLeBytes, pow_zero, Nat.mod_one]
  | succ w ih =>
    simp only [leBytes, ofLeBytes, ih, UInt8.toNat_ofNat', Nat.reducePow]
    rw [pow_succ', Nat.mod_mul]

lemma ofBeBytes_beBytes (w n : Nat) : ofBeBytes (beBytes w n) = n % 256 ^ w := by
  rw [ofBeBytes, beBytes, reverse_reverse, ofLeBytes_leBytes]

variable {n a c : Nat}

/-- A word that fits its width survives the little-endian layout. -/
lemma ofLeBytes_leBytes_of_lt {w : Nat} (h : n < 256 ^ w) : ofLeBytes (leBytes w n) = n := by
  rw [ofLeBytes_leBytes, Nat.mod_eq_of_lt h]

lemma ofBeBytes_beBytes_of_lt {w : Nat} (h : n < 256 ^ w) : ofBeBytes (beBytes w n) = n := by
  rw [ofBeBytes_beBytes, Nat.mod_eq_of_lt h]

/-- An octet string denotes a number of its own width. -/
lemma ofLeBytes_lt (bs : Bytes) : ofLeBytes bs < 256 ^ bs.length := by
  induction bs with
  | nil => simp [ofLeBytes, pow_zero]
  | cons b bs ih =>
    have hb := b.toNat_lt
    simp only [ofLeBytes, length_cons, pow_succ']
    omega

/-- The layout of the value of an octet string is that octet string. -/
lemma leBytes_ofLeBytes (bs : Bytes) : leBytes bs.length (ofLeBytes bs) = bs := by
  induction bs with
  | nil => rfl
  | cons b bs ih =>
    have hb := b.toNat_lt
    have hq : (b.toNat + 256 * ofLeBytes bs) / 256 = ofLeBytes bs := by omega
    have hr : UInt8.ofNat (b.toNat + 256 * ofLeBytes bs) = b := by
      apply UInt8.toNat_inj.mp
      rw [UInt8.toNat_ofNat']
      omega
    simp [ofLeBytes, leBytes, hq, hr, ih]

section

variable {α : Type*} {b s t : List α} {x : α} {off : Nat}

/-- The elements `off..stop` of a buffer that is known to be long enough. -/
def cut (b : List α) (off stop : Nat) : List α := (b.drop off).take (stop - off)

/-- The elements `off..stop` of a buffer, when the range lies inside it. -/
def slice (b : List α) (off stop : Nat) : Option (List α) :=
  if off ≤ stop ∧ stop ≤ b.length then some (cut b off stop) else none

/-- The offset lies inside the buffer and `s` is everything from there on. -/
structure Rest (b : List α) (off : Nat) (s : List α) : Prop where
  le : off ≤ b.length
  drop : b.drop off = s

lemma Rest.zero (b : List α) : Rest b 0 b := ⟨Nat.zero_le _, rfl⟩

lemma Rest.of_eq (h : s = b) : Rest b 0 s := ⟨Nat.zero_le _, h.symm⟩

lemma Rest.length (h : Rest b off s) : off + s.length = b.length := by
  have hl := congrArg List.length h.drop
  have hle := h.le
  rw [length_drop] at hl
  omega

/-- Reading one element. -/
lemma Rest.head (h : Rest b off (x :: s)) : b[off]? = some x := by
  have hh := congrArg (fun l => l[0]?) h.drop
  simpa using hh

/-- Skipping a block that has been read. -/
lemma Rest.append (h : Rest b off (s ++ t)) : Rest b (off + s.length) t := by
  have hl := h.length
  rw [length_append] at hl
  refine ⟨by omega, ?_⟩
  rw [← drop_drop, h.drop, drop_left]

lemma Rest.tail (h : Rest b off (x :: s)) : Rest b (off + 1) s :=
  Rest.append (s := [x]) h

lemma Rest.cut (h : Rest b off (s ++ t)) : cut b off (off + s.length) = s := by
  rw [MyQuic2.cut, h.drop, Nat.add_sub_cancel_left, take_left]

/-- Reading a block of known length. -/
lemma Rest.slice (h : Rest b off (s ++ t)) : slice b off (off + s.length) = some s := by
  have hl := h.length
  rw [length_append] at hl
  have hr : off ≤ off + s.length ∧ off + s.length ≤ b.length := by omega
  rw [MyQuic2.slice, if_pos hr, h.cut]

lemma rest_of_slice {stop : Nat} (h : MyQuic2.slice b off stop = some s) :
    Rest b off (s ++ b.drop stop) ∧ stop = off + s.length := by
  rw [MyQuic2.slice] at h
  split at h
  · rename_i hr
    have hs : (b.drop off).take (stop - off) = s := some.inj h
    have hlen := congrArg List.length hs
    rw [length_take, length_drop] at hlen
    have hstop : stop = off + s.length := by omega
    refine ⟨⟨by omega, ?_⟩, hstop⟩
    have hd := take_append_drop (stop - off) (b.drop off)
    rw [hs, drop_drop, Nat.add_sub_cancel' hr.1] at hd
    exact hd.symm
  · exact absurd h (by simp)

/-- A successful element read splits the remainder. -/
lemma rest_of_getElem? (h : b[off]? = some x) : Rest b off (x :: b.drop (off + 1)) := by
  obtain ⟨hlt, hx⟩ := List.getElem?_eq_some_iff.mp h
  exact ⟨by omega, by rw [List.drop_eq_getElem_cons hlt, hx]⟩

lemma exists_chunks (n k : Nat) (h : b.length = k * n) :
    ∃ chunks : List (List α), chunks.length = k ∧ (∀ c ∈ chunks, c.length = n) ∧
      chunks.flatten = b := by
  induction k generalizing b with
  | zero =>
    have hb : b = [] := length_eq_zero_iff.mp (by simpa using h)
    exact ⟨[], rfl, by simp, hb.symm⟩
  | succ k ih =>
    rw [Nat.succ_mul] at h
    obtain ⟨chunks, hk, hn, hflat⟩ := ih (b := b.drop n) (by rw [length_drop]; omega)
    refine ⟨b.take n :: chunks, by rw [length_cons, hk], ?_, ?_⟩
    · refine forall_mem_cons.mpr ⟨?_, hn⟩
      rw [length_take]
      omega
    · rw [flatten_cons, hflat, take_append_drop]

end

/-- The octets of a text. -/
def utf8 (d : String) : Bytes := d.toByteArray.data.toList

/-- The text with the given octets, if they are well formed. -/
def ofUtf8 (b : Bytes) : Option String := String.fromUTF8? ⟨b.toArray⟩

/-- A text is read back from its own octets. -/
lemma ofUtf8_utf8 (d : String) : ofUtf8 (utf8 d) = some d := by
  have h : (⟨(utf8 d).toArray⟩ : ByteArray) = d.toByteArray := by
    rw [utf8, Array.toArray_toList]
  rw [ofUtf8, h, String.fromUTF8?, dif_pos d.isValidUTF8]
  rfl

/-- Number of values of the machine's pointer-sized unsigned integer. -/
def usizeSize : Nat := 2 ^ 64

/-- Addition of two lengths, refused when the machine word overflows. -/
def checkedAdd (a c : Nat) : Option Nat :=
  if a + c < usizeSize then some (a + c) else none

/-- Multiplication of two lengths, refused when the machine word overflows. -/
def checkedMul (a c : Nat) : Option Nat :=
  if a * c < usizeSize then some (a * c) else none

/-- Addition of two lengths that stops at the largest machine word. -/
def saturatingAdd (a c : Nat) : Nat := min (a + c) (usizeSize - 1)

/-- Multiplication of two lengths that stops at the largest machine word. -/
def saturatingMul (a c : Nat) : Nat := min (a * c) (usizeSize - 1)

lemma checked_eq_some :
    (if a < usizeSize then some a else none) = some n ↔ n = a ∧ n < usizeSize := by
  split
  · rename_i h
    rw [some.injEq]
    constructor
    · intro he
      exact ⟨he.symm, he ▸ h⟩
    · rintro ⟨rfl, _⟩
      rfl
  · rename_i h
    simp only [reduceCtorEq, false_iff]
    rintro ⟨rfl, hn⟩
    exact h hn

lemma checkedAdd_eq_some : checkedAdd a c = some n ↔ n = a + c ∧ n < usizeSize :=
  checked_eq_some

lemma checkedMul_eq_some : checkedMul a c = some n ↔ n = a * c ∧ n < usizeSize :=
  checked_eq_some

lemma saturatingAdd_of_lt (h : a + c < usizeSize) : saturatingAdd a c = a + c :=
  Nat.min_eq_left (Nat.le_sub_one_of_lt h)

lemma saturatingMul_of_lt (h : a * c < usizeSize) : saturatingMul a c = a * c :=
  Nat.min_eq_left (Nat.le_sub_one_of_lt h)

lemma saturatingAdd_le_iff (hn : n < usizeSize - 1) : saturatingAdd a c ≤ n ↔ a + c ≤ n := by
  rw [saturatingAdd, min_le_iff]
  exact or_iff_left (Nat.not_le.mpr hn)

lemma saturatingMul_le_iff (hn : n < usizeSize - 1) : saturatingMul a c ≤ n ↔ a * c ≤ n := by
  rw [saturatingMul, min_le_iff]
  exact or_iff_left (Nat.not_le.mpr hn)

variable {total : Nat} {β : Type*}

/-- A fold whose every step adds a cost adds up all costs, and every step's side fact holds. -/
lemma foldlM_sum {step : Nat → β → Option Nat} (cost : β → Nat) (P : β → Prop)
    (hstep : ∀ t x t', step t x = some t' → t' = t + cost x ∧ t' < usizeSize ∧ P x) {xs : List β}
    (h : xs.foldlM step total = some n) (ht : total < usizeSize) :
    n = total + (xs.map cost).sum ∧ n < usizeSize ∧ ∀ x ∈ xs, P x := by
  induction xs generalizing total with
  | nil =>
    have he : total = n := by simpa using h
    simp [← he, ht]
  | cons x xs ih =>
    simp only [foldlM_cons, bind_eq_bind, bind_eq_some_iff] at h
    obtain ⟨t, hx, hrest⟩ := h
    obtain ⟨rfl, hlt, hp⟩ := hstep _ _ _ hx
    obtain ⟨hn, hnlt, hall⟩ := ih hrest hlt
    refine ⟨?_, hnlt, ?_⟩
    · rw [hn, map_cons, sum_cons]
      omega
    · simpa [hp] using hall

lemma foldlM_checkedAdd {cost : β → Nat} {xs : List β}
    (h : xs.foldlM (fun t x => checkedAdd t (cost x)) total = some n) (ht : total < usizeSize) :
    n = total + (xs.map cost).sum ∧ n < usizeSize := by
  obtain ⟨hn, hlt, -⟩ := foldlM_sum cost (fun _ => True)
    (fun t x t' hx => ⟨(checkedAdd_eq_some.mp hx).1, (checkedAdd_eq_some.mp hx).2, trivial⟩) h ht
  exact ⟨hn, hlt⟩

lemma guard_eq_some {ok : Bool} {x : Option β} {y : β} (h : (if !ok then none else x) = some y) :
    ok = true ∧ x = some y := by
  simpa using h

lemma foldlM_of_sum {step : Nat → β → Option Nat} (cost : β → Nat) {xs : List β}
    (hstep : ∀ x ∈ xs, ∀ t, t + cost x < usizeSize → step t x = some (t + cost x))
    (h : total + (xs.map cost).sum < usizeSize) :
    xs.foldlM step total = some (total + (xs.map cost).sum) := by
  induction xs generalizing total with
  | nil => rfl
  | cons x xs ih =>
    rw [map_cons, sum_cons] at h ⊢
    have hx := hstep x mem_cons_self total (by omega)
    rw [foldlM_cons, hx]
    have hrest : xs.foldlM step (total + cost x) = some (total + cost x + (xs.map cost).sum) :=
      ih (fun y hy => hstep y (mem_cons_of_mem x hy)) (by omega)
    rw [Nat.add_assoc] at hrest
    exact hrest

end MyQuic2
