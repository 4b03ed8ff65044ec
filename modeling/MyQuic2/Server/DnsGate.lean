import MyQuic2.Core.Bytes

/-!
# The gate in front of the resolver

One lookup per session, name and port: the first datagram claims the name, the
datagrams behind it are parked until its answer lands, and a name without a usable
address is refused for a while. The gate has a few slots and a hint in front of
them that mirrors the last verdict.
-/

namespace MyQuic2

open List Option

def dnsGateSlots : Nat := 8

/-- How long a claim blocks later datagrams, in milliseconds. -/
def dnsGateInflightTtlMs : Nat := 15000

/-- Datagrams parked behind one claim. -/
def dnsGateParkItems : Nat := 4

/-- Octets parked behind one claim. -/
def dnsGateParkBytes : Nat := 8 * 1024

/-- The gate's answer to one datagram. -/
inductive GateClaim where
  /-- The caller starts the lookup; the token ends it. -/
  | proceed (generation : UInt32)
  | inFlight
  | unusable
  deriving DecidableEq

inductive GateState where
  | inFlight
  | unusable
  deriving DecidableEq

structure GateEntry where
  key : UInt64
  state : GateState
  deadline : Nat
  generation : UInt32
  parked : List Bytes
  parkedBytes : Nat

namespace GateEntry

/-- The entry of one claim. -/
def isFor (key : UInt64) (generation : UInt32) (e : GateEntry) : Bool :=
  e.key = key && e.generation = generation

/-- A claim in flight that still counts. -/
def isOpen (key : UInt64) (nowMs : Nat) (e : GateEntry) : Bool :=
  e.key = key && e.state = .inFlight && nowMs < e.deadline

def dropParked (e : GateEntry) : GateEntry := { e with parked := [], parkedBytes := 0 }

end GateEntry

structure DnsGate where
  entries : List (Option GateEntry)
  nextGeneration : UInt32
  /-- Zero while there is no hint. -/
  hotKey : UInt64
  hotState : Option GateState
  hotDeadline : Nat

/-- A name the way DNS compares it: letters folded, trailing dots gone. -/
def normalizeHost (host : String) : Bytes :=
  let octets := utf8 host
  -- The first octet stays even when it is a dot.
  let kept := octets.take 1 ++ ((octets.drop 1).reverse.dropWhile (· == 0x2E)).reverse
  kept.map fun b => if 0x41 ≤ b && b ≤ 0x5A then b + 0x20 else b

/-- Change the first element that passes a test. -/
def updateFirst {α : Type} (p : α → Bool) (f : α → α) : List α → List α
  | [] => []
  | a :: l => if p a then f a :: l else a :: updateFirst p f l

lemma mem_updateFirst {α : Type} {p : α → Bool} {f : α → α} {l : List α} {a : α}
    (h : a ∈ updateFirst p f l) : a ∈ l ∨ ∃ b, l.find? p = some b ∧ a = f b := by
  induction l with
  | nil => exact .inl h
  | cons b l ih =>
    rw [updateFirst] at h
    by_cases hb : p b = true
    · rw [if_pos hb, mem_cons] at h
      rcases h with rfl | h
      · exact .inr ⟨b, find?_cons_of_pos hb, rfl⟩
      · exact .inl (mem_cons_of_mem b h)
    rw [if_neg hb, mem_cons] at h
    rcases h with rfl | h
    · exact .inl (mem_cons_self ..)
    rcases ih h with hmem | ⟨c, hc, ha⟩
    · exact .inl (mem_cons_of_mem b hmem)
    · exact .inr ⟨c, by rw [find?_cons_of_neg hb, hc], ha⟩

/-- The first occupied slot that passes a test holds the first entry that passes it. -/
lemma find?_slot {α : Type} (q : α → Bool) (l : List (Option α)) :
    l.find? (fun slot => slot.any q) = ((l.filterMap id).find? q).map some := by
  induction l with
  | nil => rfl
  | cons slot l ih =>
    cases slot with
    | none => exact ih
    | some a =>
      have hcons : (some a :: l).filterMap id = a :: l.filterMap id := rfl
      rw [hcons]
      by_cases ha : q a = true
      · rw [find?_cons_of_pos ha, find?_cons_of_pos (by exact ha), map_some]
      · rw [find?_cons_of_neg ha, find?_cons_of_neg (by exact ha), ih]

namespace DnsGate

def new : DnsGate where
  entries := List.replicate dnsGateSlots none
  nextGeneration := 0
  hotKey := 0
  hotState := none
  hotDeadline := 0

section

variable (g : DnsGate) (key : UInt64) (nowMs : Nat)

def live : List GateEntry := g.entries.filterMap id

def publishHot (state : GateState) (deadline : Nat) : DnsGate :=
  { g with hotKey := key, hotState := some state, hotDeadline := deadline }

def clearHot : DnsGate := { g with hotKey := 0 }

/-- The verdict of the hint, while it is about this key and counts. -/
def hotVerdict : Option GateState :=
  if key ≠ 0 && g.hotKey = key && nowMs < g.hotDeadline then g.hotState else none

open GateEntry

/-- The entry that decides a claim: one in flight before any other. -/
def hit : Option GateEntry :=
  g.live.find? (isOpen key nowMs) <|>
    g.live.find? fun e => e.key = key && nowMs < e.deadline

/-- The first slot that is free or holds an entry past its deadline. -/
def freeSlot : Option Nat :=
  g.entries.findIdx? fun slot => slot.all fun e => e.deadline ≤ nowMs

/-- Claim the right to look a name up. With every slot taken, one is overwritten in turn. -/
def claim : GateClaim × DnsGate :=
  match g.hotVerdict key nowMs with
  | some .inFlight => (.inFlight, g)
  | some .unusable => (.unusable, g)
  | none =>
    match g.hit key nowMs with
    | some e =>
      (if e.state = .inFlight then .inFlight else .unusable, g.publishHot key e.state e.deadline)
    | none =>
      let generation := g.nextGeneration
      let slot := (g.freeSlot nowMs).getD (generation.toNat % dnsGateSlots)
      let deadline := saturatingAdd nowMs dnsGateInflightTtlMs
      let e : GateEntry := ⟨key, .inFlight, deadline, generation, [], 0⟩
      let g := { g with
        nextGeneration := generation + 1
        entries := g.entries.set slot (some e) }
      (.proceed generation, g.publishHot key .inFlight deadline)

variable (generation : UInt32)

/-- Park a follower behind the claim it arrived during. -/
def park (payload : Bytes) : Bool × DnsGate :=
  match g.live.find? (isOpen key nowMs) with
  | none => (false, g)
  | some e =>
    if dnsGateParkItems ≤ e.parked.length ||
        dnsGateParkBytes < saturatingAdd e.parkedBytes payload.length then (false, g)
    else
      (true, { g with
        entries := updateFirst (fun slot => slot.any (isOpen key nowMs))
          (Option.map fun e => { e with
            parked := e.parked ++ [payload], parkedBytes := e.parkedBytes + payload.length })
          g.entries })

/-- Take the followers of a claim, in arrival order. -/
def takeParked : List Bytes × DnsGate :=
  match g.live.find? (isFor key generation) with
  | none => ([], g)
  | some e =>
    (e.parked, { g with
      entries := updateFirst (fun slot => slot.any (isFor key generation))
        (Option.map dropParked) g.entries })

/-- Put a refusal into a slot and into the hint. -/
def refuse (slot : Nat) (key : UInt64) (generation : UInt32) (deadline : Nat) : DnsGate :=
  let e : GateEntry := ⟨key, .unusable, deadline, generation, [], 0⟩
  ({ g with entries := g.entries.set slot (some e) }).publishHot key .unusable deadline

/-- Empty the followers of a claim. -/
def clearFollowers : DnsGate :=
  { g with
    entries := g.entries.map (Option.map fun e =>
      if e.isFor key generation then e.dropParked else e) }

/-- Complete a claim, with the time to refuse the name for if it had no usable address. Followers
that are still parked are lost and counted. -/
def finish (unusable : Option Nat) (nowMs : Nat) : Nat × DnsGate :=
  let lost := ((g.live.filter (isFor key generation)).map (·.parked.length)).sum
  let g := g.clearFollowers key generation
  let own := g.entries.findIdx? fun slot => slot.any (isFor key generation)
  (lost,
    match own, unusable with
    | some slot, some ttl => g.refuse slot key generation (saturatingAdd nowMs ttl)
    | some slot, none => ({ g with entries := g.entries.set slot none }).clearHot
    | none, some ttl =>
      -- A newer claim of the name publishes its own verdict.
      if g.live.any fun e => e.key = key && nowMs < e.deadline then g
      else
        match g.freeSlot nowMs with
        | some slot => g.refuse slot key generation (saturatingAdd nowMs ttl)
        | none => g
    | none, none => if g.live.any fun e => e.key = key then g else g.clearHot)

end

/-- Every entry has the property. -/
def Each (Q : GateEntry → Prop) (g : DnsGate) : Prop := ∀ e, some e ∈ g.entries → Q e

namespace Each

variable {Q : GateEntry → Prop} {g : DnsGate}

lemma new : DnsGate.new.Each Q := by
  intro e he
  cases eq_of_mem_replicate he

lemma set (h : g.Each Q) {e : GateEntry} (he : Q e) (slot : Nat) :
    ∀ e', some e' ∈ g.entries.set slot (some e) → Q e' := by
  intro e' hmem
  rcases mem_or_eq_of_mem_set hmem with hold | hnew
  · exact h e' hold
  · obtain rfl := some.inj hnew
    exact he

variable {key : UInt64}

lemma claim (h : g.Each Q) {nowMs : Nat}
    (hnew : ∀ deadline generation, Q ⟨key, .inFlight, deadline, generation, [], 0⟩) :
    (g.claim key nowMs).2.Each Q := by
  unfold DnsGate.claim
  split
  · exact h
  · exact h
  · split
    · exact h
    · exact h.set (hnew _ _) _

lemma update {q : GateEntry → Bool} {f : GateEntry → GateEntry} (h : g.Each Q)
    (hf : ∀ e, g.live.find? q = some e → Q e → Q (f e)) :
    Each Q { g with entries := updateFirst (fun slot => slot.any q) (Option.map f) g.entries } := by
  intro e' hmem
  rcases mem_updateFirst hmem with hold | ⟨slot, hslot, heq⟩
  · exact h e' hold
  rw [find?_slot] at hslot
  obtain ⟨e₀, he₀, rfl⟩ := map_eq_some_iff.mp hslot
  obtain rfl := some.inj heq
  obtain ⟨slot, hslot, rfl⟩ := mem_filterMap.mp (mem_of_find?_eq_some he₀)
  exact hf e₀ he₀ (h e₀ hslot)

lemma park (h : g.Each Q) {nowMs : Nat} {payload : Bytes}
    (hpark : ∀ e, g.live.find? (GateEntry.isOpen key nowMs) = some e → Q e →
      Q { e with
        parked := e.parked ++ [payload], parkedBytes := e.parkedBytes + payload.length }) :
    (g.park key nowMs payload).2.Each Q := by
  unfold DnsGate.park
  split
  · exact h
  rename_i e hfind
  split
  · exact h
  · exact h.update hpark

section

variable (h : g.Each Q) (hdrop : ∀ e, Q e → Q e.dropParked) (key : UInt64) (generation : UInt32)
include h hdrop

lemma takeParked : (g.takeParked key generation).2.Each Q := by
  unfold DnsGate.takeParked
  split
  · exact h
  · exact h.update fun e _ => hdrop e

lemma clearFollowers : (g.clearFollowers key generation).Each Q := by
  intro e hmem
  obtain ⟨slot, hslot, heq⟩ := mem_map.mp hmem
  obtain ⟨e₀, rfl, rfl⟩ := map_eq_some_iff.mp heq
  split
  · exact hdrop e₀ (h e₀ hslot)
  · exact h e₀ hslot

end

variable {generation : UInt32}
  (hrefuse : ∀ deadline, Q ⟨key, .unusable, deadline, generation, [], 0⟩) (unusable : Option Nat)
  (nowMs : Nat)
include hrefuse

/-- A property of the entries that are left once the followers of the claim are taken. -/
lemma finish_of_clear (h : (g.clearFollowers key generation).Each Q) :
    (g.finish key generation unusable nowMs).2.Each Q := by
  unfold DnsGate.finish
  dsimp only
  split
  · exact h.set (hrefuse _) _
  · intro e hmem
    rcases mem_or_eq_of_mem_set hmem with hold | hnone
    · exact h e hold
    · cases hnone
  · split
    · exact h
    split
    · exact h.set (hrefuse _) _
    · exact h
  · split <;> exact h

lemma finish (h : g.Each Q) (hdrop : ∀ e, Q e → Q e.dropParked) :
    (g.finish key generation unusable nowMs).2.Each Q :=
  (h.clearFollowers hdrop key generation).finish_of_clear hrefuse unusable nowMs

end Each

/-- Nothing is parked behind a claim. -/
def NoFollowers (g : DnsGate) (key : UInt64) (generation : UInt32) : Prop :=
  ∀ e, some e ∈ g.entries → e.isFor key generation = true → e.parked = []

instance (g : DnsGate) (key : UInt64) (generation : UInt32) :
    Decidable (g.NoFollowers key generation) :=
  decidable_of_iff (∀ slot ∈ g.entries, ∀ e ∈ slot, e.isFor key generation = true → e.parked = [])
    ⟨fun h e he => h (some e) he e rfl, by
      rintro h slot hslot e he
      rw [mem_def] at he
      subst he
      exact h e hslot⟩

namespace NoFollowers

variable {g : DnsGate} {key : UInt64} {generation : UInt32}

lemma each_dropParked (e : GateEntry)
    (_ : e.isFor key generation = true → e.parked = []) :
    e.dropParked.isFor key generation = true → e.dropParked.parked = [] :=
  fun _ => rfl

variable (h : g.NoFollowers key generation) (key' : UInt64) (generation' : UInt32)
include h

lemma claim (nowMs : Nat) : (g.claim key' nowMs).2.NoFollowers key generation :=
  Each.claim h fun _ _ _ => rfl

lemma park {key' : UInt64} {nowMs : Nat}
    (hother : ∀ e, g.live.find? (GateEntry.isOpen key' nowMs) = some e →
      e.isFor key generation = false) (payload : Bytes) :
    (g.park key' nowMs payload).2.NoFollowers key generation := by
  refine Each.park h fun e he _ hfor => ?_
  have hsame : e.isFor key generation = true := hfor
  rw [hother e he] at hsame
  cases hsame

lemma takeParked_fst : (g.takeParked key generation).1 = [] := by
  unfold DnsGate.takeParked
  split
  · rfl
  rename_i e hfind
  have hmem := mem_of_find?_eq_some hfind
  obtain ⟨slot, hslot, rfl⟩ := mem_filterMap.mp hmem
  exact h e hslot (find?_some hfind)

lemma takeParked : (g.takeParked key' generation').2.NoFollowers key generation :=
  Each.takeParked h each_dropParked key' generation'

lemma finish (unusable : Option Nat) (nowMs : Nat) :
    (g.finish key' generation' unusable nowMs).2.NoFollowers key generation :=
  Each.finish (fun _ _ => rfl) unusable nowMs h each_dropParked

end NoFollowers

end DnsGate

end MyQuic2
