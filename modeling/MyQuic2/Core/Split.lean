import MyQuic2.Core.Bytes

/-!
# Cutting a string into pieces and putting pieces back

A string is cut into a first piece and further pieces of one common width, of
which the last may be shorter. Pieces are written back into a buffer in any
order; a write at a piece's own place never disturbs what agrees already.
-/

namespace MyQuic2

open List

variable {α : Type} {first unit : Nat}

/-- Where piece `i` starts. -/
def pieceStart (first unit : Nat) : Nat → Nat
  | 0 => 0
  | i + 1 => first + i * unit

/-- Piece `i` of the string. -/
def piece (first unit : Nat) (s : List α) (i : Nat) : List α :=
  (s.drop (pieceStart first unit i)).take (pieceStart first unit (i + 1) - pieceStart first unit i)

/-- `n` non-empty pieces cover a string of the given length. -/
structure Covers (first unit n len : Nat) : Prop where
  first_pos : 0 < first
  unit_pos : 0 < unit
  pos : 0 < n
  last : pieceStart first unit (n - 1) < len
  all : len ≤ pieceStart first unit n

lemma pieceStart_succ_eq (first unit i : Nat) :
    pieceStart first unit (i + 1) = pieceStart first unit i + if i = 0 then first else unit := by
  cases i with
  | zero => simp [pieceStart]
  | succ i =>
    rw [if_neg (Nat.succ_ne_zero i), pieceStart, pieceStart, Nat.succ_mul, Nat.add_assoc]

lemma pieceStart_mono {i j : Nat} (h : i ≤ j) :
    pieceStart first unit i ≤ pieceStart first unit j := by
  induction h with
  | refl => exact le_refl _
  | step _ ih =>
    rw [pieceStart_succ_eq]
    exact ih.trans (Nat.le_add_right _ _)

lemma length_piece (first unit : Nat) (s : List α) (i : Nat) :
    (piece first unit s i).length =
      min (pieceStart first unit (i + 1)) s.length - pieceStart first unit i := by
  rw [piece, length_take, length_drop]
  omega

section

variable {n len : Nat} (hc : Covers first unit n len) {i : Nat}
include hc

lemma Covers.start_lt (hi : i < n) : pieceStart first unit i < len :=
  lt_of_le_of_lt (pieceStart_mono (by omega)) hc.last

/-- Every piece but the last ends inside the string. -/
lemma Covers.stop_le (hi : i + 1 < n) : pieceStart first unit (i + 1) ≤ len :=
  le_of_lt (hc.start_lt hi)

variable {s : List α}

/-- Every piece but the last has its full width. -/
lemma Covers.length_piece_full (hs : s.length = len) (hi : i + 1 < n) :
    (piece first unit s i).length = if i = 0 then first else unit := by
  rw [length_piece, hs, Nat.min_eq_left (hc.stop_le hi), pieceStart_succ_eq]
  omega

lemma Covers.piece_ne_nil (hs : s.length = len) (hi : i < n) : piece first unit s i ≠ [] := by
  have hlt := hc.start_lt hi
  have hstep := pieceStart_succ_eq first unit i
  have hfirst := hc.first_pos
  have hunit := hc.unit_pos
  intro hnil
  have hlen := length_piece first unit s i
  rw [hnil, length_nil, hs] at hlen
  split at hstep <;> omega

/-- The pieces side by side are the string. -/
lemma Covers.flatMap_piece (hs : s.length = len) :
    (List.range n).flatMap (piece first unit s) = s := by
  have hfront : ∀ m, (List.range m).flatMap (piece first unit s) =
      s.take (pieceStart first unit m) := by
    intro m
    induction m with
    | zero => simp [pieceStart]
    | succ m ih =>
      have hle : pieceStart first unit m ≤ pieceStart first unit (m + 1) :=
        pieceStart_mono (Nat.le_succ m)
      rw [range_succ, flatMap_append, ih, flatMap_singleton, piece, ← take_add,
        Nat.add_sub_of_le hle]
  rw [hfront, take_of_length_le (hs ▸ hc.all)]

end

/-- Write octets into a buffer at a position, growing it with zeros where needed. -/
def writeAt (buf : Bytes) (pos : Nat) (s : Bytes) : Bytes :=
  if pos = buf.length then buf ++ s
  else
    let grown := buf ++ List.replicate (pos + s.length - buf.length) 0
    grown.take pos ++ (s ++ grown.drop (pos + s.length))

lemma length_writeAt (buf : Bytes) (pos : Nat) (s : Bytes) :
    (writeAt buf pos s).length = max buf.length (pos + s.length) := by
  unfold writeAt
  split
  · rename_i h
    rw [length_append, ← h]
    omega
  · simp only [length_append, length_take, length_drop, length_replicate]
    omega

variable {buf s : Bytes} {k pos : Nat}

lemma length_take_grown :
    ((buf ++ List.replicate (pos + s.length - buf.length) 0).take pos).length = pos := by
  simp only [length_take, length_append, length_replicate]
  omega

/-- A write leaves the octets in front of it alone, as far as there are any. -/
lemma getElem?_writeAt_lt (hk : k < pos) (hb : k < buf.length) :
    (writeAt buf pos s)[k]? = buf[k]? := by
  unfold writeAt
  split
  · exact getElem?_append_left hb
  rw [getElem?_append_left (length_take_grown.symm ▸ hk), getElem?_take_of_lt hk,
    getElem?_append_left hb]

lemma getElem?_writeAt_mid (hk : pos ≤ k) (hk' : k < pos + s.length) :
    (writeAt buf pos s)[k]? = s[k - pos]? := by
  unfold writeAt
  split
  · rename_i h
    rw [getElem?_append_right (by omega), h]
  rw [getElem?_append_right (by rw [length_take_grown]; omega), length_take_grown,
    getElem?_append_left (by omega)]

/-- A write leaves the octets behind it alone. -/
lemma getElem?_writeAt_ge (hk : pos + s.length ≤ k) (hb : k < buf.length) :
    (writeAt buf pos s)[k]? = buf[k]? := by
  unfold writeAt
  split
  · omega
  rw [getElem?_append_right (by rw [length_take_grown]; omega), length_take_grown,
    getElem?_append_right (by omega), getElem?_drop,
    show pos + s.length + (k - pos - s.length) = k by omega, getElem?_append_left hb]

/-- The buffer holds the octets at the position. -/
def HoldsAt (buf : Bytes) (pos : Nat) (s : Bytes) : Prop :=
  ∀ k < s.length, buf[pos + k]? = s[k]?

lemma holdsAt_writeAt (buf : Bytes) (pos : Nat) (s : Bytes) :
    HoldsAt (writeAt buf pos s) pos s := by
  intro k hk
  rw [getElem?_writeAt_mid (by omega) (by omega), Nat.add_sub_cancel_left]

/-- What a buffer holds lies inside it. -/
lemma HoldsAt.le_length (h : HoldsAt buf pos s) (hk : k < s.length) : pos + k < buf.length := by
  by_contra hge
  have hk' := h k hk
  rw [getElem?_eq_none (by omega), getElem?_eq_getElem hk] at hk'
  exact absurd hk' (by simp)

/-- A write keeps what the buffer holds in front of it or behind it. -/
lemma HoldsAt.writeAt {t : Bytes} {at' : Nat} (h : HoldsAt buf pos s)
    (hdisj : pos + s.length ≤ at' ∨ at' + t.length ≤ pos) : HoldsAt (writeAt buf at' t) pos s := by
  intro k hk
  have hb := h.le_length hk
  rcases hdisj with hbefore | hbehind
  · rw [getElem?_writeAt_lt (by omega) hb]
    exact h k hk
  · rw [getElem?_writeAt_ge (by omega) hb]
    exact h k hk

/-- A buffer that holds every chunk behind the ones before it, and nothing more, is their
concatenation. -/
lemma eq_flatMap_of_holdsAt {c : Nat → Bytes} {n : Nat}
    (hlen : buf.length ≤ ((List.range n).flatMap c).length)
    (h : ∀ i < n, HoldsAt buf ((List.range i).flatMap c).length (c i)) :
    buf = (List.range n).flatMap c := by
  -- One chunk after the other extends the agreeing front of the buffer.
  have hfront : ∀ m ≤ n, buf.take ((List.range m).flatMap c).length = (List.range m).flatMap c := by
    intro m
    induction m with
    | zero => simp
    | succ m ih =>
      intro hm
      have hchunk : (buf.drop ((List.range m).flatMap c).length).take (c m).length = c m := by
        apply ext_getElem?
        intro k
        by_cases hk : k < (c m).length
        · rw [getElem?_take_of_lt hk, getElem?_drop, h m (by omega) k hk]
        · rw [getElem?_eq_none (by rw [length_take]; omega), getElem?_eq_none (by omega)]
      rw [range_succ, flatMap_append, flatMap_singleton, length_append,
        take_add, ih (by omega), hchunk]
  rw [← hfront n (le_refl n), take_of_length_le hlen]

end MyQuic2
