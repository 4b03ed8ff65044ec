import MyQuic2.Core.Run
import MyQuic2.Net.Addr

/-!
# The worker's memo of names

Each worker remembers its latest answers by name and port, in sets of two slots that a
hash of the key picks. The hash is a filter only: a slot answers for a key when it holds
that very key, and the key determines the name, up to letter case and trailing dots, and
the port.
-/

namespace MyQuic2

open Option

/-- Octets of a memo key: the longest name, a separator and five digits. -/
def memoKeyBytes : Nat := 255 + 1 + 5

def asciiLower (c : UInt8) : UInt8 := if 65 ≤ c ∧ c ≤ 90 then c + 32 else c

/-- Drop trailing dots from a name in reverse, but not its last octet. -/
def dropDots : Bytes → Bytes
  | 46 :: c :: rest => dropDots (c :: rest)
  | name => name

/-- A name up to letter case and trailing dots. -/
def dnsName (host : String) : Bytes := ((dropDots (utf8 host).reverse).reverse).map asciiLower

def decimalLoop : Nat → Nat → Bytes → Bytes
  | 0, _, digits => digits
  | rounds + 1, p, digits =>
    let digits := UInt8.ofNat (48 + p % 10) :: digits
    if p / 10 = 0 then digits else decimalLoop rounds (p / 10) digits

def decimal (port : UInt16) : Bytes := decimalLoop 5 port.toNat []

def memoKey (name : Bytes) (port : UInt16) : Bytes := name ++ 0 :: decimal port

def dnsKey (host : String) (port : UInt16) : Bytes := memoKey (dnsName host) port

section

open List

section

variable (rounds p : Nat) (digits : Bytes)

private def decimalValue (start : Nat) (digits : Bytes) : Nat :=
  digits.foldl (fun n c => 10 * n + (c.toNat - 48)) start

lemma decimalValue_loop (hp : p < 10 ^ rounds) (digits : Bytes) :
    decimalValue 0 (decimalLoop rounds p digits) = decimalValue p digits := by
  induction rounds generalizing p digits with
  | zero =>
    obtain rfl : p = 0 := by omega
    rfl
  | succ rounds ih =>
    have hdigit : (UInt8.ofNat (48 + p % 10)).toNat - 48 = p % 10 := by
      rw [UInt8.toNat_ofNat']
      omega
    unfold decimalLoop
    split
    · rw [decimalValue, foldl_cons, hdigit, decimalValue]
      congr 1
      omega
    have hp' : p / 10 < 10 ^ rounds := by
      omega
    rw [ih (p / 10) hp', decimalValue, foldl_cons, hdigit, decimalValue]
    congr 1
    omega

lemma decimal_inj {port port' : UInt16} (h : decimal port = decimal port') : port = port' := by
  have hvalue : ∀ p : UInt16, decimalValue 0 (decimal p) = p.toNat := by
    intro p
    have hp : p.toNat < 10 ^ 5 := p.toNat_lt.trans (by decide)
    exact decimalValue_loop 5 p.toNat hp []
  apply UInt16.toNat_inj.mp
  rw [← hvalue port, ← hvalue port', h]

lemma ne_zero_of_mem_loop (h : ∀ c ∈ digits, c ≠ 0) : ∀ c ∈ decimalLoop rounds p digits, c ≠ 0 := by
  induction rounds generalizing p digits with
  | zero => exact h
  | succ rounds ih =>
    have hcons : ∀ c ∈ UInt8.ofNat (48 + p % 10) :: digits, c ≠ 0 := by
      intro c hc
      obtain rfl | hc := mem_cons.mp hc
      · intro hzero
        have hval := congrArg UInt8.toNat hzero
        rw [UInt8.toNat_ofNat'] at hval
        have hnone : (0 : UInt8).toNat = 0 := rfl
        omega
      · exact h c hc
    unfold decimalLoop
    split
    · exact hcons
    · exact ih (p / 10) _ hcons

lemma zero_notMem_decimal (port : UInt16) : 0 ∉ decimal port := fun h =>
  ne_zero_of_mem_loop 5 port.toNat [] (forall_mem_nil _) 0 h rfl

/-- The last separator splits a key, so that it belongs to one name and port. -/
lemma memoKey_inj {name name' : Bytes} {port port' : UInt16}
    (h : memoKey name port = memoKey name' port') : name = name' ∧ port = port' := by
  have hsplit : ∀ {name name' c : Bytes} {port port' : UInt16}, name' = name ++ c →
      0 :: decimal port = c ++ 0 :: decimal port' → name = name' ∧ port = port' := by
    intro name name' c port port' hname hdigits
    cases c with
    | nil =>
      rw [append_nil] at hname
      exact ⟨hname.symm, decimal_inj (List.cons.inj hdigits).2⟩
    | cons x c =>
      have hmem : 0 ∈ decimal port := by
        rw [(List.cons.inj hdigits).2]
        exact mem_append_right _ mem_cons_self
      exact absurd hmem (zero_notMem_decimal port)
  rcases append_eq_append_iff.mp h with ⟨c, hname, hdigits⟩ | ⟨c, hname, hdigits⟩
  · exact hsplit hname hdigits
  · obtain ⟨hname', hport⟩ := hsplit hname hdigits
    exact ⟨hname'.symm, hport.symm⟩

lemma length_dropDots_le (name : Bytes) : (dropDots name).length ≤ name.length := by
  induction name with
  | nil => exact Nat.le_refl _
  | cons c name ih =>
    unfold dropDots
    split
    · rename_i heq
      obtain ⟨rfl, rfl⟩ := List.cons.inj heq
      exact ih.trans (Nat.le_succ _)
    · exact Nat.le_refl _

lemma length_dnsName_le (host : String) : (dnsName host).length ≤ (utf8 host).length := by
  rw [dnsName, length_map, length_reverse, ← (utf8 host).length_reverse]
  exact length_dropDots_le _

lemma length_decimalLoop_le : (decimalLoop rounds p digits).length ≤ rounds + digits.length := by
  induction rounds generalizing p digits with
  | zero => exact Nat.le_add_left ..
  | succ rounds ih =>
    unfold decimalLoop
    dsimp only
    split
    · rw [length_cons]
      omega
    have := ih (p / 10) (UInt8.ofNat (48 + p % 10) :: digits)
    rw [length_cons] at this
    omega

end

lemma length_decimal_le (port : UInt16) : (decimal port).length ≤ 5 :=
  length_decimalLoop_le 5 port.toNat []

lemma length_dnsKey_le {host : String} (hhost : (utf8 host).length ≤ 255) (port : UInt16) :
    (dnsKey host port).length ≤ memoKeyBytes := by
  have hname := length_dnsName_le host
  have hport := length_decimal_le port
  rw [dnsKey, memoKey, length_append, length_cons, memoKeyBytes]
  omega

end

/-- What the worker's memo knows about a name. -/
inductive CachedLookup where
  | addr (a : SocketAddr)
  | negative
  | unknown
  deriving DecidableEq

/-- One remembered answer; without an address it is a refusal, good for one epoch. -/
structure MemoSlot where
  hash : UInt64
  key : Bytes
  addr : Option SocketAddr
  expires : Nat
  negEpoch : Nat

/-- Two slots, the newer one first. -/
structure MemoWays where
  way0 : Option MemoSlot
  way1 : Option MemoSlot

def memoSets : Nat := 64

/-- A worker's memo. -/
abbrev DnsMemo := Vector MemoWays memoSets

private def memoMul : UInt64 := 0x9e3779b97f4a7c15

private def leWord (octets : Bytes) : UInt64 := UInt64.ofNat (ofLeBytes octets)

private def hashChunks : Nat → UInt64 → Bytes → UInt64
  | 0, h, _ => h
  | rounds + 1, h, bytes =>
    if bytes.isEmpty then h
    else hashChunks rounds ((h ^^^ leWord (bytes.take 8)) * memoMul) (bytes.drop 8)

/-- A fold over the octets, eight at a time, and a finalizer. -/
def dnsMemoHash (key : Bytes) : UInt64 :=
  let h := hashChunks key.length (UInt64.ofNat key.length * memoMul) key
  let h := (h ^^^ (h >>> 30)) * 0xbf58476d1ce4e5b9
  let h := (h ^^^ (h >>> 27)) * 0x94d049bb133111eb
  h ^^^ (h >>> 31)

def dnsMemoSet (hash : UInt64) : Fin memoSets := ⟨hash.toNat % memoSets, Nat.mod_lt _ (by decide)⟩

namespace MemoSlot

def new (key : Bytes) (addr : Option SocketAddr) (expires epoch : Nat) : MemoSlot where
  hash := dnsMemoHash key
  key := key
  addr := addr
  expires := expires
  negEpoch := if addr.isNone then epoch else 0

def isFor (slot : MemoSlot) (hash : UInt64) (key : Bytes) : Bool :=
  slot.hash = hash && slot.key = key

end MemoSlot

namespace DnsMemo

def empty : DnsMemo := Vector.replicate memoSets ⟨none, none⟩

section

variable (memo : DnsMemo) (key : Bytes) (addr : Option SocketAddr) (expires epoch : Nat)

def Holds (slot : MemoSlot) : Prop :=
  ∃ i : Fin memoSets, memo[i].way0 = some slot ∨ memo[i].way1 = some slot

def memoPeek : Option MemoSlot :=
  let hash := dnsMemoHash key
  let ways := memo[dnsMemoSet hash]
  (ways.way0.filter fun slot => slot.isFor hash key).or
    (ways.way1.filter fun slot => slot.isFor hash key)

/-- Put a slot into a set: in place where the newer slot is for the same key, and in front of it
otherwise. -/
def promote (ways : MemoWays) (slot : MemoSlot) : MemoWays :=
  if ways.way0.any fun old => old.isFor slot.hash slot.key then { ways with way0 := some slot }
  else ⟨some slot, ways.way0⟩

/-- Remember an answer or a refusal. A key that does not fit is not remembered. -/
def memoPut : DnsMemo :=
  if memoKeyBytes < key.length then memo
  else
    let i := dnsMemoSet (dnsMemoHash key)
    memo.set i (promote memo[i] (.new key addr expires epoch))

/-- Remember a refusal that was learnt in an epoch, unless that is over. -/
def memoPutWithEpoch (expected epoch : Nat) : DnsMemo :=
  if epoch = expected then memo.memoPut key none expires expected else memo

/-- What the memo knows about a name, and the life its answer has left. -/
def lookupCachedFastWithTtl (nowMs epoch : Nat) (host : String) (port : UInt16) :
    CachedLookup × Nat :=
  match memo.memoPeek (dnsKey host port) with
  | none => (.unknown, 0)
  | some slot =>
    match slot.addr with
    | some addr =>
      if nowMs < slot.expires then (.addr addr, slot.expires - nowMs) else (.unknown, 0)
    | none =>
      if nowMs < slot.expires && slot.negEpoch = epoch then (.negative, 0) else (.unknown, 0)

end

lemma not_holds_empty (slot : MemoSlot) : ¬ empty.Holds slot := by
  rintro ⟨i, h⟩
  rw [show empty[i] = ⟨none, none⟩ from Vector.getElem_replicate i.isLt] at h
  rcases h with h | h <;> cases h

variable {key : Bytes} {memo : DnsMemo} {slot : MemoSlot}

lemma memoPeek_spec (h : memo.memoPeek key = some slot) : memo.Holds slot ∧ slot.key = key := by
  have hkey : slot.isFor (dnsMemoHash key) key = true → slot.key = key := by
    intro hfor
    exact of_decide_eq_true (Bool.and_eq_true_iff.mp hfor).2
  rcases or_eq_some_iff.mp h with hslot | ⟨-, hslot⟩
  · obtain ⟨hway, hfor⟩ := filter_eq_some_iff.mp hslot
    exact ⟨⟨_, .inl hway⟩, hkey hfor⟩
  · obtain ⟨hway, hfor⟩ := filter_eq_some_iff.mp hslot
    exact ⟨⟨_, .inr hway⟩, hkey hfor⟩

lemma way0_promote (ways : MemoWays) : (promote ways slot).way0 = some slot := by
  unfold promote
  split <;> rfl

lemma of_promote {ways : MemoWays} {new : MemoSlot}
    (h : (promote ways new).way0 = some slot ∨ (promote ways new).way1 = some slot) :
    slot = new ∨ ways.way0 = some slot ∨ ways.way1 = some slot := by
  rcases h with h | h
  · rw [way0_promote] at h
    exact .inl (some.inj h).symm
  unfold promote at h
  split at h
  · exact .inr (.inr h)
  · exact .inr (.inl h)

/-- A slot is the one put last, or was there before. -/
lemma Holds.of_memoPut {addr : Option SocketAddr} {expires epoch : Nat}
    (h : (memo.memoPut key addr expires epoch).Holds slot) :
    memo.Holds slot ∨ key.length ≤ memoKeyBytes ∧ slot = .new key addr expires epoch := by
  unfold memoPut at h
  split at h
  · exact .inl h
  rename_i hfits
  obtain ⟨i, hslot⟩ := h
  dsimp only [Fin.getElem_fin] at hslot
  rw [Vector.getElem_set] at hslot
  split at hslot
  · rcases of_promote hslot with rfl | hold
    · exact .inr ⟨Nat.le_of_not_lt hfits, rfl⟩
    · exact .inl ⟨_, hold⟩
  · exact .inl ⟨i, hslot⟩

/-- A key that fits finds what was put last. -/
lemma memoPeek_memoPut (hfits : key.length ≤ memoKeyBytes) (memo : DnsMemo)
    (addr : Option SocketAddr) (expires epoch : Nat) :
    (memo.memoPut key addr expires epoch).memoPeek key = some (.new key addr expires epoch) := by
  have hself : (MemoSlot.new key addr expires epoch).isFor (dnsMemoHash key) key = true := by
    simp [MemoSlot.isFor, MemoSlot.new]
  rw [memoPut, if_neg (Nat.not_lt.mpr hfits), memoPeek]
  simp [Vector.getElem_set_self, way0_promote, hself]

/-- An address comes from a slot of that name and port that is not over. -/
lemma lookupCachedFastWithTtl_spec {nowMs epoch life : Nat} {host : String} {port : UInt16}
    {addr : SocketAddr}
    (h : memo.lookupCachedFastWithTtl nowMs epoch host port = (.addr addr, life)) :
    ∃ slot, memo.Holds slot ∧ slot.key = dnsKey host port ∧ slot.addr = some addr ∧
      0 < life ∧ slot.expires = nowMs + life := by
  unfold lookupCachedFastWithTtl at h
  split at h
  · cases h
  rename_i slot hslot
  obtain ⟨hholds, hkey⟩ := memoPeek_spec hslot
  split at h
  · rename_i found haddr
    split at h
    · cases h
      exact ⟨slot, hholds, hkey, haddr, by omega, by omega⟩
    · cases h
  · split at h <;> cases h

/-- An answer is found for as long as it was put for. -/
lemma lookupCachedFastWithTtl_memoPut {host : String} (hhost : (utf8 host).length ≤ 255)
    (memo : DnsMemo) (port : UInt16) (addr : SocketAddr) {nowMs expires : Nat}
    (hlive : nowMs < expires) (epoch epoch' : Nat) :
    (memo.memoPut (dnsKey host port) (some addr) expires epoch).lookupCachedFastWithTtl nowMs
      epoch' host port = (.addr addr, expires - nowMs) := by
  rw [lookupCachedFastWithTtl, memoPeek_memoPut (length_dnsKey_le hhost port)]
  simp [MemoSlot.new, hlive]

/-- The positive and the negative hit of a key; the reader checks deadline and epoch. -/
def memoPeekBoth (memo : DnsMemo) (key : Bytes) : Option MemoSlot × Option MemoSlot :=
  match memo.memoPeek key with
  | none => (none, none)
  | some slot => if slot.addr.isNone then (none, some slot) else (some slot, none)

/-- A memo, the current epoch of refusals, and everything that was stored, the latest first. -/
structure Run where
  memo : DnsMemo
  epoch : Nat
  stored : List MemoSlot

inductive Event where
  | put (key : Bytes) (addr : Option SocketAddr) (expires : Nat)
  | putWithEpoch (key : Bytes) (addr : Option SocketAddr) (expires expected : Nat)
  | setEpoch (epoch : Nat)

namespace Run

def new : Run := ⟨.empty, 0, []⟩

def store (s : Run) (key : Bytes) (addr : Option SocketAddr) (expires epoch : Nat) : Run :=
  { s with
    memo := s.memo.memoPut key addr expires epoch
    stored :=
      if memoKeyBytes < key.length then s.stored
      else .new key addr expires epoch :: s.stored }

def next (s : Run) : Event → Run
  | .put key addr expires => s.store key addr expires s.epoch
  | .putWithEpoch key addr expires expected =>
    -- A positive answer is not fenced.
    if addr.isSome || s.epoch = expected then s.store key addr expires expected else s
  | .setEpoch epoch => { s with epoch := epoch }

def lastStored (s : Run) (key : Bytes) : Option MemoSlot := s.stored.find? (·.key = key)

/-- Every slot is in the set of its key and holds what was stored last for it, and the ways of a
set are for different keys. -/
structure Sound (s : Run) : Prop where
  slot : ∀ (i : Fin memoSets) slot, s.memo[i].way0 = some slot ∨ s.memo[i].way1 = some slot →
    dnsMemoSet (dnsMemoHash slot.key) = i ∧ slot.hash = dnsMemoHash slot.key ∧
      s.lastStored slot.key = some slot
  apart : ∀ (i : Fin memoSets) a b, s.memo[i].way0 = some a → s.memo[i].way1 = some b →
    a.key ≠ b.key

lemma sound_new : new.Sound := by
  refine ⟨fun i slot h => absurd ⟨i, h⟩ (not_holds_empty slot), fun i a b ha _ => ?_⟩
  exact absurd ⟨i, .inl ha⟩ (not_holds_empty a)

variable {s : Run}

/-- The other slots of a set after a store were there, and are for other keys. -/
lemma Sound.of_promote (h : s.Sound) {i : Fin memoSets} {new : MemoSlot}
    (hnew : new.hash = dnsMemoHash new.key) (hslot : (promote s.memo[i] new).way1 = some slot) :
    (s.memo[i].way0 = some slot ∨ s.memo[i].way1 = some slot) ∧ new.key ≠ slot.key := by
  unfold promote at hslot
  split at hslot
  · rename_i hfor
    obtain ⟨old, hold, hfor⟩ := any_eq_true _ _ |>.mp hfor
    have hkey : old.key = new.key := of_decide_eq_true (Bool.and_eq_true_iff.mp hfor).2
    exact ⟨.inr hslot, hkey ▸ h.apart i old slot hold hslot⟩
  rename_i hfor
  refine ⟨.inl hslot, fun hkey => hfor ?_⟩
  have hhash := (h.slot i slot (.inl hslot)).2.1
  simp_all [MemoSlot.isFor]

lemma Sound.store (h : s.Sound) (key : Bytes) (addr : Option SocketAddr) (expires epoch : Nat) :
    (s.store key addr expires epoch).Sound := by
  by_cases hfits : memoKeyBytes < key.length
  · simpa [Run.store, memoPut, hfits] using h
  obtain ⟨new, hnew⟩ : ∃ new, MemoSlot.new key addr expires epoch = new := ⟨_, rfl⟩
  have hhash : new.hash = dnsMemoHash new.key := by rw [← hnew]; rfl
  have hkey : new.key = key := by rw [← hnew]; rfl
  have hget : ∀ j : Fin memoSets, (s.store key addr expires epoch).memo[j] =
      if dnsMemoSet (dnsMemoHash key) = j then promote s.memo[j] new else s.memo[j] := by
    intro j
    simp only [Run.store, memoPut, hfits, hnew, if_false, Fin.getElem_fin, Vector.getElem_set,
      Fin.ext_iff]
    split
    · rename_i hj
      simp [hj]
    · rfl
  have hlast : ∀ k, (s.store key addr expires epoch).lastStored k =
      if key = k then some new else s.lastStored k := by
    intro k
    have hstored : (s.store key addr expires epoch).stored = new :: s.stored := by
      simp [Run.store, hfits, hnew]
    rw [lastStored, hstored]
    by_cases hk : key = k <;> simp [lastStored, hkey, hk]
  constructor
  · intro j slot hslot
    rw [hget] at hslot
    rw [hlast]
    split at hslot
    · rename_i hj
      rw [way0_promote] at hslot
      rcases hslot with hslot | hslot
      · obtain rfl := some.inj hslot
        exact ⟨hkey ▸ hj, hhash, by simp [hkey]⟩
      obtain ⟨hold, hne⟩ := h.of_promote hhash hslot
      obtain ⟨hset, hh, hl⟩ := h.slot j slot hold
      exact ⟨hset, hh, by rw [if_neg (hkey ▸ hne), hl]⟩
    · rename_i hj
      obtain ⟨hset, hh, hl⟩ := h.slot j slot hslot
      refine ⟨hset, hh, ?_⟩
      rw [if_neg (fun hk : key = slot.key => hj (hk ▸ hset)), hl]
  · intro j a b ha hb
    rw [hget] at ha hb
    split at ha
    · rename_i hj
      rw [if_pos hj] at hb
      rw [way0_promote] at ha
      obtain rfl := some.inj ha
      exact (h.of_promote hhash hb).2
    · rename_i hj
      rw [if_neg hj] at hb
      exact h.apart j a b ha hb

lemma Sound.next (h : s.Sound) (ev : Event) : (s.next ev).Sound := by
  cases ev with
  | put key addr expires => exact h.store key addr expires s.epoch
  | putWithEpoch key addr expires expected =>
    unfold Run.next
    dsimp only
    split
    · exact h.store key addr expires expected
    · exact h
  | setEpoch epoch => exact ⟨h.slot, h.apart⟩

lemma sound_after (es : List Event) : (after next new es).Sound :=
  after_of_kept (fun _ ev h => h.next ev) sound_new es

lemma Sound.peek (h : s.Sound) (hpeek : s.memo.memoPeek key = some slot) :
    s.lastStored key = some slot := by
  obtain ⟨⟨i, hslot⟩, rfl⟩ := memoPeek_spec hpeek
  exact (h.slot i slot hslot).2.2

/-- A key finds the value that was stored last for it, as a hit of its own kind; an answer comes
from it before its deadline only, and a refusal in its epoch only; and a key is in one place. -/
structure Faithful (s : Run) : Prop where
  positive : ∀ key slot, (s.memo.memoPeekBoth key).1 = some slot →
    s.lastStored key = some slot ∧ slot.addr.isSome
  negative : ∀ key slot, (s.memo.memoPeekBoth key).2 = some slot →
    s.lastStored key = some slot ∧ slot.addr = none
  answer : ∀ nowMs host port addr life,
    s.memo.lookupCachedFastWithTtl nowMs s.epoch host port = (.addr addr, life) →
    ∃ slot, s.lastStored (dnsKey host port) = some slot ∧ slot.addr = some addr ∧
      nowMs < slot.expires ∧ life = slot.expires - nowMs
  refusal : ∀ nowMs host port,
    (s.memo.lookupCachedFastWithTtl nowMs s.epoch host port).1 = .negative →
    ∃ slot, s.lastStored (dnsKey host port) = some slot ∧ slot.addr = none ∧
      nowMs < slot.expires ∧ slot.negEpoch = s.epoch
  place : ∀ (i j : Fin memoSets) a b, (s.memo[i].way0 = some a ∨ s.memo[i].way1 = some a) →
    (s.memo[j].way0 = some b ∨ s.memo[j].way1 = some b) → a.key = b.key →
    i = j ∧ (s.memo[i].way0 = some a ↔ s.memo[j].way0 = some b)

/-- Over any stores, lookups and changes of the epoch the memo is a faithful cache. -/
theorem memo_keeps_last_stored (es : List Event) : (after next new es).Faithful := by
  have h := sound_after es
  generalize after next new es = s at h ⊢
  constructor
  · intro key slot
    unfold memoPeekBoth
    split
    · simp
    rename_i found hfound
    split
    · simp
    · rintro ⟨⟩
      exact ⟨h.peek hfound, by simp_all [isSome_iff_ne_none]⟩
  · intro key slot
    unfold memoPeekBoth
    split
    · simp
    rename_i found hfound
    split
    · rintro ⟨⟩
      exact ⟨h.peek hfound, by simp_all⟩
    · simp
  · intro nowMs host port addr life hl
    unfold lookupCachedFastWithTtl at hl
    grind [Sound.peek]
  · intro nowMs host port hl
    unfold lookupCachedFastWithTtl at hl
    grind [Sound.peek]
  · intro i j a b ha hb hkey
    have hi := (h.slot i a ha).1
    have hj := (h.slot j b hb).1
    obtain rfl : i = j := by rw [← hi, ← hj, hkey]
    have hab := h.apart i
    grind

/-- The memo itself looks neither at the deadline nor at the epoch. -/
theorem memo_peeks_past_deadline :
    ((after next new [.put [0] none 1, .setEpoch 1]).memo.memoPeekBoth [0]).2 =
      some ⟨dnsMemoHash [0], [0], none, 1, 0⟩ ∧
    (after next new [.put [0] none 1, .setEpoch 1]).epoch = 1 := by
  have hpeek := memoPeek_memoPut (show [(0 : UInt8)].length ≤ _ by decide) .empty none 1 0
  refine ⟨?_, rfl⟩
  change ((DnsMemo.empty.memoPut [0] none 1 0).memoPeekBoth [0]).2 = _
  rw [memoPeekBoth, hpeek]
  rfl

end Run

end DnsMemo

end MyQuic2
