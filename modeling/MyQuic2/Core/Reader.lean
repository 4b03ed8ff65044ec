import MyQuic2.Core.Bytes

/-!
# Fallible readers and iterators

A reader takes a buffer and an offset and either fails with the text of the
check that failed or returns a value and the next offset. The lemmas come in
two directions: what a reader does in front of a known block, and what a
successful read says about the buffer. An iterator is a state with a `next`
function that may produce a value and moves to a new state.
-/

namespace MyQuic2

section

variable {ε α β : Type}

@[simp] lemma ok_bind (a : α) (f : α → Except ε β) : (Except.ok a >>= f) = f a := rfl

@[simp] lemma error_bind (e : ε) (f : α → Except ε β) :
    ((Except.error e : Except ε α) >>= f) = .error e := rfl

/-- A sequence succeeds exactly when both of its parts do. -/
lemma bind_eq_ok {x : Except ε α} {f : α → Except ε β} {r : β} :
    (x >>= f) = .ok r ↔ ∃ a, x = .ok a ∧ f a = .ok r := by
  cases x with
  | error e => simp
  | ok a => simp

/-- Continue only if the test holds. -/
def ensure (c : Bool) (e : ε) : Except ε Unit := if c then .ok () else .error e

@[simp] lemma ensure_true (e : ε) : ensure true e = .ok () := rfl

@[simp] lemma ensure_false (e : ε) : ensure false e = .error e := rfl

lemma ensure_eq_ok {c : Bool} {e : ε} {u : Unit} : ensure c e = .ok u ↔ c = true := by
  cases c <;> simp

end

section

variable {ε : Type} {b s t : Bytes} {x : UInt8} {off w : Nat}

/-- The octet at an offset. -/
def readByte (e : ε) (b : Bytes) (off : Nat) : Except ε UInt8 :=
  match b[off]? with
  | none => .error e
  | some x => .ok x

/-- The little-endian word of `w` octets at an offset. `wrap` reports that the end of the
word is no offset at all, `trunc` that it lies behind the buffer. -/
def readWord (wrap trunc : ε) (w : Nat) (b : Bytes) (off : Nat) : Except ε (Nat × Nat) :=
  match checkedAdd off w with
  | none => .error wrap
  | some stop =>
    match slice b off stop with
    | none => .error trunc
    | some s => .ok (ofLeBytes s, stop)

lemma readByte_of_rest (h : Rest b off (x :: s)) (e : ε) : readByte e b off = .ok x := by
  rw [readByte, h.head]

lemma rest_of_readByte {e : ε} (h : readByte e b off = .ok x) :
    Rest b off (x :: b.drop (off + 1)) := by
  rw [readByte] at h
  cases hb : b[off]? with
  | none => simp [hb] at h
  | some y =>
    rw [hb] at h
    have he : y = x := Except.ok.inj h
    exact rest_of_getElem? (he ▸ hb)

lemma readWord_of_rest (h : Rest b off (s ++ t)) (hw : s.length = w) (ho : off + w < usizeSize)
    (wrap trunc : ε) : readWord wrap trunc w b off = .ok (ofLeBytes s, off + w) := by
  have hs := h.slice
  rw [hw] at hs
  simp [readWord, checkedAdd, if_pos ho, hs]

/-- A word that was written is read back, and the reader stands right behind it. -/
lemma readWord_leBytes {n : Nat} (h : Rest b off (leBytes w n ++ t)) (hn : n < 256 ^ w)
    (ho : off + w < usizeSize) (wrap trunc : ε) :
    readWord wrap trunc w b off = .ok (n, off + w) := by
  rw [readWord_of_rest h (length_leBytes w n) ho, ofLeBytes_leBytes_of_lt hn]

lemma rest_of_readWord {wrap trunc : ε} {n stop : Nat}
    (h : readWord wrap trunc w b off = .ok (n, stop)) :
    ∃ s, s.length = w ∧ n = ofLeBytes s ∧ stop = off + w ∧ stop < usizeSize ∧
      Rest b off (s ++ b.drop stop) := by
  rw [readWord] at h
  cases hc : checkedAdd off w with
  | none => simp [hc] at h
  | some e =>
    obtain ⟨rfl, hlt⟩ := checkedAdd_eq_some.mp hc
    cases hs : slice b off (off + w) with
    | none => simp [hc, hs] at h
    | some s =>
      simp only [hc, hs, Except.ok.injEq, Prod.mk.injEq] at h
      obtain ⟨rfl, rfl⟩ := h
      obtain ⟨hr, hl⟩ := rest_of_slice hs
      exact ⟨s, by omega, rfl, rfl, hlt, hr⟩

/-- The 32-bit little-endian word at an offset. -/
def readU32 (wrap trunc : ε) (b : Bytes) (off : Nat) : Except ε (UInt32 × Nat) :=
  (readWord wrap trunc 4 b off).map fun r => (UInt32.ofNat r.1, r.2)

/-- The octets of a 32-bit word. -/
def u32Bytes (n : UInt32) : Bytes := leBytes 4 n.toNat

lemma readU32_of_rest {n : UInt32} (h : Rest b off (u32Bytes n ++ t))
    (ho : off + 4 < usizeSize) (wrap trunc : ε) : readU32 wrap trunc b off = .ok (n, off + 4) := by
  rw [readU32, readWord_leBytes h (by simpa using n.toNat_lt) ho]
  simp [Except.map, UInt32.ofNat_toNat]

lemma rest_u32Bytes {n : UInt32} (h : Rest b off (u32Bytes n ++ t)) : Rest b (off + 4) t := by
  simpa [u32Bytes, length_leBytes] using h.append

@[simp] lemma length_u32Bytes (n : UInt32) : (u32Bytes n).length = 4 := length_leBytes 4 _

end

variable {σ α : Type}

/-- The values of successive calls of `next`, up to the first empty answer. -/
inductive Yields (next : σ → Option α × σ) : σ → List α → Prop where
  | done {s : σ} (h : (next s).1 = none) : Yields next s []
  | more {s s' : σ} {a : α} {xs : List α} (h : next s = (some a, s')) (t : Yields next s' xs) :
      Yields next s (a :: xs)

variable {next : σ → Option α × σ} {s : σ} {body : α → Bytes} {cells : List (Bytes × α)}
  {left : σ → Bytes}

lemma Yields.unique {xs ys : List α} (hx : Yields next s xs) (hy : Yields next s ys) : xs = ys := by
  induction hx generalizing ys with
  | done h =>
    cases hy with
    | done _ => rfl
    | more h' _ =>
      rw [h'] at h
      exact absurd h (by simp)
  | more h _ ih =>
    cases hy with
    | done h' =>
      rw [h] at h'
      exact absurd h' (by simp)
    | more h' t' =>
      rw [h] at h'
      obtain ⟨rfl, rfl⟩ := h'
      rw [ih t']

/-- The values of at most `n` calls of `next`, up to the first empty answer. -/
def collectItems (next : σ → Option α × σ) : Nat → σ → List α
  | 0, _ => []
  | n + 1, s =>
    match next s with
    | (some a, s') => a :: collectItems next n s'
    | (none, _) => []

/-- A walk over an octet string: every step of `next` takes a header and the body of its
value off the front of what is left, and nothing else. -/
inductive Walk (next : σ → Option α × σ) (left : σ → Bytes) (body : α → Bytes) :
    σ → List (Bytes × α) → σ → Prop where
  | nil (s : σ) : Walk next left body s [] s
  | cons {s s' e : σ} {hdr : Bytes} {a : α} {cells : List (Bytes × α)}
      (h : next s = (some a, s')) (hleft : left s = hdr ++ (body a ++ left s'))
      (t : Walk next left body s' cells e) : Walk next left body s ((hdr, a) :: cells) e

section

variable (body : α → Bytes) (c : Bytes × α) (cells : List (Bytes × α))

/-- The octets of a list of headers and bodies, in order. -/
def flatCells : Bytes :=
  cells.flatMap fun c => c.1 ++ body c.2

@[simp] lemma flatCells_nil : flatCells body [] = [] := rfl

@[simp] lemma flatCells_cons :
    flatCells body (c :: cells) = c.1 ++ (body c.2 ++ flatCells body cells) := by
  simp [flatCells]

/-- Relabelling the values of the cells keeps the octets. -/
lemma flatCells_map {β : Type} (body' : β → Bytes) (g : Bytes × β → α)
    (hg : ∀ c, body (g c) = body' c.2) (cells : List (Bytes × β)) :
    flatCells body (cells.map fun c => (c.1, g c)) = flatCells body' cells := by
  induction cells with
  | nil => rfl
  | cons c cells ih => simp [flatCells_cons, hg, ih]

end

/-- A header and a body for every element add up. -/
lemma length_flatCells_map {β : Type} (body : β → Bytes) (cell : α → Bytes × β) (xs : List α) :
    (flatCells body (xs.map cell)).length =
      (xs.map fun x => (cell x).1.length + (body (cell x).2).length).sum := by
  induction xs with
  | nil => rfl
  | cons x xs ih =>
    simp only [List.map_cons, flatCells_cons, List.length_append, List.sum_cons, ih]
    omega

/-- An invariant that every step passes on, one cell at a time, gives a walk over all cells. -/
lemma exists_walk (Inv : σ → List (Bytes × α) → Prop)
    (hstep : ∀ s hdr a cells, Inv s ((hdr, a) :: cells) →
      ∃ s', next s = (some a, s') ∧ left s = hdr ++ (body a ++ left s') ∧ Inv s' cells)
    (h : Inv s cells) : ∃ e, Walk next left body s cells e ∧ Inv e [] := by
  induction cells generalizing s with
  | nil => exact ⟨s, .nil s, h⟩
  | cons c cells ih =>
    obtain ⟨s', hnext, hleft, hinv⟩ := hstep s c.1 c.2 cells h
    obtain ⟨e, hwalk, hend⟩ := ih hinv
    exact ⟨e, .cons hnext hleft hwalk, hend⟩

/-- The cells of a walk tile what lies between its ends. -/
lemma Walk.left_eq {e : σ} (h : Walk next left body s cells e) :
    left s = flatCells body cells ++ left e := by
  induction h with
  | nil s => rfl
  | cons _ hleft _ ih => rw [hleft, ih, flatCells_cons, List.append_assoc, List.append_assoc]

/-- A walk to an exhausted state lists what the iterator yields. -/
lemma Walk.yields {e : σ} (h : Walk next left body s cells e) (he : (next e).1 = none) :
    Yields next s (cells.map Prod.snd) := by
  induction h with
  | nil s => exact .done he
  | cons h _ _ ih => exact .more h (ih he)

end MyQuic2
