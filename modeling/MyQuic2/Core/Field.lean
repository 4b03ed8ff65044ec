import MyQuic2.Core.Reader

/-!
# Fields, dictionaries and item lists

A field relates octets to the value they denote. A reader is exact for a field
when it accepts the octets of that field and nothing else. Two loops are built
over exact readers: one collects distinct ids, the other walks a counted list of
length-prefixed items. Each of them is again exact.
-/

namespace MyQuic2

open List

variable {ε α : Type}

/-- The reader accepts exactly the octets of the field, wherever they stand, and stops
right behind them. -/
structure Reads (F : Bytes → α → Prop) (read : Bytes → Nat → Except ε (α × Nat)) : Prop where
  accepts : ∀ {b s t : Bytes} {a : α} {off : Nat}, F s a → Rest b off (s ++ t) →
    b.length < usizeSize → read b off = .ok (a, off + s.length)
  sound : ∀ {b : Bytes} {a : α} {off stop : Nat}, read b off = .ok (a, stop) → off ≤ b.length →
    ∃ s, F s a ∧ stop = off + s.length ∧ Rest b off (s ++ b.drop stop)

/-- Converting the value keeps a reader exact. -/
lemma Reads.map {β : Type} {F : Bytes → α → Prop} {read : Bytes → Nat → Except ε (α × Nat)}
    (h : Reads F read) (g : α → β) :
    Reads (fun s c => ∃ a, F s a ∧ c = g a)
      (fun b off => (read b off).map fun r => (g r.1, r.2)) := by
  constructor
  · intro b s t c off hs hr hb
    obtain ⟨a, ha, rfl⟩ := hs
    rw [h.accepts ha hr hb]
    rfl
  intro b c off stop hread hoff
  cases hr : read b off with
  | error e => simp [hr, Except.map] at hread
  | ok r =>
    obtain ⟨a, stop'⟩ := r
    simp only [hr, Except.map, Except.ok.injEq, Prod.mk.injEq] at hread
    obtain ⟨rfl, rfl⟩ := hread
    obtain ⟨s, hs, hrest⟩ := h.sound hr hoff
    exact ⟨s, ⟨a, hs, rfl⟩, hrest⟩

section

variable [DecidableEq α]

/-- Read `n` more ids, each of them valid and not among those read before. -/
def readDistinct (read : Bytes → Nat → Except ε (α × Nat)) (valid : α → Bool) (bad : ε)
    (b : Bytes) : Nat → Nat → List α → Except ε (List α × Nat)
  | 0, off, ids => .ok (ids, off)
  | n + 1, off, ids => do
      let (a, off) ← read b off
      let _ ← ensure (valid a && !ids.contains a) bad
      readDistinct read valid bad b n off (ids ++ [a])

variable {F : Bytes → α → Prop} {read : Bytes → Nat → Except ε (α × Nat)} {valid : α → Bool}
  {bad : ε} {b t : Bytes} {off : Nat}

lemma readDistinct_of_rest (hF : Reads F read) (acc : List α) {entries : List (Bytes × α)}
    (hall : ∀ e ∈ entries, F e.1 e.2 ∧ valid e.2 = true) (hn : (acc ++ entries.map Prod.snd).Nodup)
    (hr : Rest b off (entries.flatMap Prod.fst ++ t)) (hb : b.length < usizeSize) :
    readDistinct read valid bad b entries.length off acc =
      .ok (acc ++ entries.map Prod.snd, off + (entries.flatMap Prod.fst).length) := by
  induction entries generalizing acc off with
  | nil => simp [readDistinct]
  | cons e entries ih =>
    obtain ⟨s, a⟩ := e
    obtain ⟨⟨hs, hv⟩, hall⟩ := forall_mem_cons.mp hall
    have hr0 : Rest b off (s ++ (entries.flatMap Prod.fst ++ t)) := by
      simpa using hr
    have hfresh : a ∉ acc := by
      intro hmem
      exact (nodup_append.mp hn).2.2 a hmem a (mem_cons_self ..) rfl
    have hn' : ((acc ++ [a]) ++ entries.map Prod.snd).Nodup := by simpa using hn
    have hread := hF.accepts hs hr0 hb
    have hrec := ih (acc ++ [a]) hall hn' hr0.append
    have hguard : (valid a && !acc.contains a) = true := by
      simp [hv, hfresh]
    simp only [length_cons, readDistinct, hread, ok_bind, hguard, ensure_true, hrec]
    simp [map_cons, flatMap_cons, length_append, append_assoc, Nat.add_assoc]

lemma entries_of_readDistinct (hF : Reads F read) {n stop : Nat} {acc ids : List α}
    (h : readDistinct read valid bad b n off acc = .ok (ids, stop)) (hn : acc.Nodup)
    (hoff : off ≤ b.length) :
    ∃ entries : List (Bytes × α), ids = acc ++ entries.map Prod.snd ∧ entries.length = n ∧
      stop = off + (entries.flatMap Prod.fst).length ∧
      (∀ e ∈ entries, F e.1 e.2 ∧ valid e.2 = true) ∧ ids.Nodup ∧
      Rest b off (entries.flatMap Prod.fst ++ b.drop stop) := by
  induction n generalizing acc off with
  | zero =>
    obtain ⟨rfl, rfl⟩ := h
    exact ⟨[], by simp, rfl, rfl, by simp, hn, hoff, rfl⟩
  | succ n ih =>
    simp only [readDistinct, bind_eq_ok, ensure_eq_ok, Bool.and_eq_true, Bool.not_eq_true',
      contains_eq_mem, decide_eq_false_iff_not] at h
    obtain ⟨⟨a, off'⟩, hread, u, ⟨hv, hfresh⟩, h⟩ := h
    obtain ⟨s, hs, rfl, hrest⟩ := hF.sound hread hoff
    have hacc : (acc ++ [a]).Nodup := by
      rw [nodup_append]
      refine ⟨hn, by simp, ?_⟩
      intro x hx y hy he
      rw [mem_singleton] at hy
      exact hfresh (hy ▸ he ▸ hx)
    obtain ⟨entries, hids, hlen, hstop, hall, hnd, hr⟩ := ih h hacc hrest.append.le
    refine ⟨(s, a) :: entries, ?_, by rw [length_cons, hlen], ?_, ?_, hnd, hoff, ?_⟩
    · rw [hids, append_assoc, singleton_append, map_cons]
    · rw [hstop, flatMap_cons, length_append, Nat.add_assoc]
    · exact forall_mem_cons.mpr ⟨⟨hs, hv⟩, hall⟩
    · rw [flatMap_cons, append_assoc, ← hr.drop]
      exact hrest.drop

end

section

variable {F : Bytes → Nat → Prop} {len : Bytes → Nat → Except ε (Nat × Nat)} {short bad wrap long : ε}
  {dict : Option Nat} {b t : Bytes} {p q : Nat}

/-- The header of an item: its index where there is a dictionary, then its length. -/
def itemHead (short bad : ε) (len : Bytes → Nat → Except ε (Nat × Nat)) (dict : Option Nat)
    (b : Bytes) (p : Nat) : Except ε (Nat × Nat) :=
  match dict with
  | none => len b p
  | some nfl => do
      let idx ← readByte short b p
      let _ ← ensure (idx.toNat < nfl) bad
      len b (p + 1)

/-- The octets of an item header. -/
def HeadField (F : Bytes → Nat → Prop) (dict : Option Nat) (hdr : Bytes) (n : Nat) : Prop :=
  match dict with
  | none => F hdr n
  | some nfl => ∃ (idx : UInt8) (field : Bytes), hdr = idx :: field ∧ idx.toNat < nfl ∧ F field n

/-- An exact length reader makes an exact header reader. -/
lemma Reads.itemHead (hF : Reads F len) :
    Reads (HeadField F dict) (itemHead short bad len dict) := by
  cases dict with
  | none => exact hF
  | some nfl =>
    constructor
    · intro b s t n off h hr hb
      obtain ⟨idx, field, rfl, hidx, hf⟩ := h
      have hr' : Rest b off (idx :: (field ++ t)) := hr
      have hread := hF.accepts hf hr'.tail hb
      simp only [MyQuic2.itemHead, readByte_of_rest hr', ok_bind, hidx, decide_true, ensure_true,
        hread, length_cons, Nat.add_assoc, Nat.add_comm 1]
    intro b n off stop h hoff
    simp only [MyQuic2.itemHead, bind_eq_ok, ensure_eq_ok, decide_eq_true_eq] at h
    obtain ⟨idx, hidx, u, hlt, h⟩ := h
    have hr := rest_of_readByte hidx
    obtain ⟨field, hf, hstop, hrest⟩ := hF.sound h hr.tail.le
    refine ⟨idx :: field, ⟨idx, field, rfl, hlt, hf⟩, ?_, hoff, ?_⟩
    · rw [hstop, length_cons]
      omega
    · have hd := hr.drop
      rw [hrest.drop] at hd
      exact hd

/-- Walk `n` items from offset `p` on and return where they end. -/
def walkItems (head : Bytes → Nat → Except ε (Nat × Nat)) (wrap long : ε) (b : Bytes) :
    Nat → Nat → Except ε Nat
  | 0, p => .ok p
  | n + 1, p => do
      let (len, p) ← head b p
      match checkedAdd p len with
      | none => .error wrap
      | some stop =>
        let _ ← ensure (stop ≤ b.length) long
        walkItems head wrap long b n stop

/-- The walk accepts a list of headers and payloads and stops behind the last one. -/
lemma walkItems_of_cells (hF : Reads F len) {cells : List (Bytes × Bytes)}
    (h : ∀ c ∈ cells, F c.1 c.2.length) (hr : Rest b p (flatCells id cells ++ t))
    (hb : b.length < usizeSize) :
    walkItems len wrap long b cells.length p = .ok (p + (flatCells id cells).length) := by
  induction cells generalizing p with
  | nil => rfl
  | cons c cells ih =>
    obtain ⟨hdr, payload⟩ := c
    obtain ⟨hc, hcells⟩ := forall_mem_cons.mp h
    have hr0 : Rest b p (hdr ++ (payload ++ (flatCells id cells ++ t))) := by
      simpa using hr
    have hr1 := hr0.append
    have hr2 := hr1.append
    have hle := hr2.le
    have hread := hF.accepts hc hr0 hb
    have hstop : p + hdr.length + payload.length < usizeSize := by omega
    simp only [length_cons, walkItems, ok_bind, hread, checkedAdd, if_pos hstop, hle,
      decide_true, ensure_true, ih hcells hr2]
    simp only [flatCells_cons, length_append, id_eq]
    congr 1
    omega

/-- What the walk accepts is a list of headers and payloads. -/
lemma cells_of_walkItems (hF : Reads F len) {n : Nat}
    (h : walkItems len wrap long b n p = .ok q) (hp : p ≤ b.length) :
    ∃ cells : List (Bytes × Bytes), cells.length = n ∧ (∀ c ∈ cells, F c.1 c.2.length) ∧
      q = p + (flatCells id cells).length ∧ Rest b p (flatCells id cells ++ b.drop q) ∧
      (0 < n → q < usizeSize) := by
  induction n generalizing p with
  | zero =>
    have hq : p = q := Except.ok.inj h
    subst hq
    exact ⟨[], rfl, by simp, rfl, ⟨hp, rfl⟩, by omega⟩
  | succ n ih =>
    simp only [walkItems, bind_eq_ok] at h
    obtain ⟨⟨size, p1⟩, hlen, h⟩ := h
    cases hc : checkedAdd p1 size with
    | none => simp [hc] at h
    | some stop =>
      simp only [hc, bind_eq_ok, ensure_eq_ok, decide_eq_true_eq] at h
      obtain ⟨u, hle, h⟩ := h
      obtain ⟨hstop, hlt⟩ := checkedAdd_eq_some.mp hc
      obtain ⟨hdr, hhdr, hp1, hr0⟩ := hF.sound hlen hp
      obtain ⟨cells, hn, hall, hq, hrest, hbound⟩ := ih h hle
      -- The payload is what lies between the header and the end of the item.
      have hpay : Rest b p1 (cut b p1 stop ++ b.drop stop) := by
        refine ⟨by omega, ?_⟩
        have hd := take_append_drop (stop - p1) (b.drop p1)
        rw [drop_drop, show p1 + (stop - p1) = stop by omega] at hd
        exact hd.symm
      have hsize : (cut b p1 stop).length = size := by
        have hl := hpay.length
        rw [length_append, length_drop] at hl
        omega
      refine ⟨(hdr, cut b p1 stop) :: cells, by rw [length_cons, hn], ?_, ?_, ?_, ?_⟩
      · refine forall_mem_cons.mpr ⟨?_, hall⟩
        simp only [hsize]
        exact hhdr
      · simp only [flatCells_cons, length_append, id_eq, hsize]
        omega
      · refine ⟨hp, ?_⟩
        simp only [flatCells_cons, append_assoc, id_eq]
        rw [← hrest.drop, ← hpay.drop]
        exact hr0.drop
      · intro _
        by_cases hn0 : 0 < n
        · exact hbound hn0
        have hnil : cells = [] := length_eq_zero_iff.mp (by omega)
        rw [hnil, flatCells_nil, length_nil, Nat.add_zero] at hq
        omega

/-- The second reader of a length finds the same fields, without a reason when it fails. -/
def Peeks (F : Bytes → Nat → Prop) (lenAt : Bytes → Nat → Option (Nat × Nat)) : Prop :=
  ∀ {b s t : Bytes} {n off : Nat}, F s n → Rest b off (s ++ t) → b.length < usizeSize →
    lenAt b off = some (n, off + s.length)

/-- The payload whose length stands at an offset, and what follows it. -/
def takeItem (lenAt : Bytes → Nat → Option (Nat × Nat)) (items : Bytes) (off : Nat) :
    Option (Bytes × Bytes) := do
  let (len, off) ← lenAt items off
  let stop ← checkedAdd off len
  let payload ← slice items off stop
  some (payload, items.drop stop)

lemma takeItem_of_field {lenAt : Bytes → Nat → Option (Nat × Nat)} (hF : Peeks F lenAt)
    (pre : Bytes) {items field payload rest : Bytes} (h : F field payload.length)
    (hi : items = pre ++ (field ++ (payload ++ rest))) (hl : items.length < usizeSize) :
    takeItem lenAt items pre.length = some (payload, rest) := by
  have r0 : Rest items pre.length (field ++ (payload ++ rest)) := by
    rw [hi]
    exact ⟨by simp, drop_left⟩
  have r1 := r0.append
  have r2 := r1.append
  have hle := r2.le
  have hread := hF h r0 hl
  have hadd : pre.length + field.length + payload.length < usizeSize := by omega
  simp [takeItem, hread, Option.bind_eq_bind, Option.bind_some, checkedAdd, if_pos hadd, r1.slice,
    r2.drop]

end

end MyQuic2
