import Mathlib.Algebra.Order.BigOperators.Group.List
import Mathlib.Data.List.Count
import MyQuic2.Server.Conn

/-!
# Pending domain opens, section by section

A lookup in flight is shared by the map of pending opens and by the guard of its
task. Readers start lookups, queue payloads behind them and mark them; the task takes
the payloads, and the drop of its guard removes the key and then releases what is
left. Every lock section and every update of the octet counter is one step.
-/

namespace MyQuic2

open List Option

/-- A payload queued behind a lookup, under the number of its queueing. -/
structure QueuedOpen where
  session : UInt32
  id : UInt32
  target : TargetAddr
  payload : Bytes
  serial : Nat
  deriving DecidableEq

/-- How far the task of a lookup is with its guard. -/
inductive GuardStage where
  /-- The guard is held and no call on it is in progress. -/
  | held
  /-- A take has drained the queue and not yet released the octets. -/
  | taking (drained : List QueuedOpen)
  | dropping
  | releasing (drained : List QueuedOpen)
  /-- The drop has released the octets and counts the payloads. -/
  | counting (drained : List QueuedOpen)
  | gone

/-- A lookup, shared by the map and its guard. -/
structure OpenLookup where
  session : UInt32
  id : UInt32
  target : TargetAddr
  cancelled : Bool
  queued : List QueuedOpen
  stage : GuardStage

namespace OpenLookup

variable (l : OpenLookup)

/-- Payloads that a call on the guard has in hand. -/
def drained : List QueuedOpen :=
  match l.stage with
  | .taking ds | .releasing ds | .counting ds => ds
  | _ => []

/-- Those whose octets are still reserved. -/
def unreleased : List QueuedOpen :=
  match l.stage with
  | .taking ds | .releasing ds => ds
  | _ => []

/-- The guard has its key. -/
def keyed : Bool :=
  match l.stage with
  | .held | .taking _ => true
  | _ => false

/-- No call on the guard is in progress. -/
def idle : Bool :=
  match l.stage with
  | .held | .gone => true
  | _ => false

end OpenLookup

def octets (ws : List QueuedOpen) : Nat := (ws.map fun w => w.payload.length).sum

/-- The pending opens of a connection: every lookup that was started, the map from session and flow
id to the lookups in flight, the octet counter, and a record of the payloads that were queued, of
those that were taken and by which lookup, and of those that were counted as dropped. -/
structure PendingTable where
  lookups : List OpenLookup
  entries : Map (UInt32 × UInt32) Nat
  bytes : Nat
  accepted : List QueuedOpen
  taken : List (Nat × QueuedOpen)
  counted : List QueuedOpen

inductive PendingEvent where
  | beginPendingOpen (sess id : UInt32) (target : TargetAddr)
  | queuePendingOpenPayload (sess id : UInt32) (target : TargetAddr) (payload : Bytes)
  | cancelPendingOpensForSession (sess : UInt32)
  | take (lookup : Nat)
  | release (lookup : Nat)
  | dropGuard (lookup : Nat)
  | drain (lookup : Nat)
  | count (lookup : Nat)

/-- Reserve octets for a payload; an empty one needs none. -/
def reservePendingBytes (current n : Nat) : Option Nat :=
  if n = 0 then some current
  else do
    let next ← checkedAdd current n
    if next ≤ maxPendingDnsBytes then some next else none

namespace PendingTable

def new : PendingTable := ⟨[], ∅, 0, [], [], []⟩

variable (t : PendingTable) (r : Nat)

section

variable (sess id : UInt32) (target : TargetAddr) (payload : Bytes)

def beginPendingOpen : PendingStart × PendingTable :=
  if (t.entries.lookup (sess, id)).isSome then (.duplicate, t)
  else if maxPendingDnsOpens ≤ t.entries.size then (.full, t)
  else
    (.started,
      { t with
        lookups := t.lookups ++ [⟨sess, id, target, false, [], .held⟩]
        entries := t.entries.insert (sess, id) t.lookups.length })

/-- Put a payload behind a lookup. -/
def enqueue (l : OpenLookup) (bytes : Nat) (w : QueuedOpen) : PendingTable :=
  { t with
    lookups := t.lookups.set r { l with queued := l.queued ++ [w] }
    bytes := bytes
    accepted := t.accepted ++ [w] }

def queuePendingOpenPayload : PendingPayload × PendingTable :=
  match (t.entries.lookup (sess, id)).bind fun r => (t.lookups[r]?).map fun l => (r, l) with
  | none => (.notPending, t)
  | some (r, l) =>
    if l.cancelled then (.cancelled, t)
    else if l.target ≠ target then (.conflict, t)
    else if maxPendingDnsPayloads ≤ l.queued.length then (.full, t)
    else
      match reservePendingBytes t.bytes payload.length with
      | none => (.full, t)
      | some bytes =>
        (.queued, t.enqueue r l bytes ⟨sess, id, target, payload, t.accepted.length⟩)

/-- Mark every lookup of the session that the map has. -/
def cancelPendingOpensForSession : PendingTable :=
  { t with
    lookups := t.lookups.mapIdx fun r l =>
      if t.entries.entries.any fun e => e.1.1 == sess && e.2 == r then { l with cancelled := true }
      else l }

end

/-- A step of the task of one lookup. -/
def atLookup (f : OpenLookup → PendingTable) : PendingTable :=
  match t.lookups[r]? with
  | none => t
  | some l => f l

/-- The first section of a take: drain the queue. -/
def take : PendingTable :=
  t.atLookup r fun l =>
    match l.stage with
    | .held =>
      { t with lookups := t.lookups.set r { l with queued := [], stage := .taking l.queued } }
    | _ => t

/-- Release the octets of the drained payloads, in a take or in a drop. -/
def release : PendingTable :=
  t.atLookup r fun l =>
    match l.stage with
    | .taking ds =>
      { t with
        lookups := t.lookups.set r { l with stage := .held }
        bytes := t.bytes - octets ds
        taken := t.taken ++ ds.map fun w => (r, w) }
    | .releasing ds =>
      { t with
        lookups := t.lookups.set r { l with stage := .counting ds }
        bytes := t.bytes - octets ds }
    | _ => t

/-- The first section of the guard's drop: remove the key. -/
def dropGuard : PendingTable :=
  t.atLookup r fun l =>
    match l.stage with
    | .held =>
      { t with
        lookups := t.lookups.set r { l with stage := .dropping }
        entries := t.entries.erase (l.session, l.id) }
    | _ => t

/-- The second section of the drop: drain what is left. -/
def drain : PendingTable :=
  t.atLookup r fun l =>
    match l.stage with
    | .dropping =>
      { t with lookups := t.lookups.set r { l with queued := [], stage := .releasing l.queued } }
    | _ => t

/-- The end of the drop: count one payload after the other. -/
def count : PendingTable :=
  t.atLookup r fun l =>
    match l.stage with
    | .counting [] => { t with lookups := t.lookups.set r { l with stage := .gone } }
    | .counting (w :: ds) =>
      { t with
        lookups := t.lookups.set r { l with stage := .counting ds }
        counted := t.counted ++ [w] }
    | _ => t

def next : PendingEvent → PendingTable
  | .beginPendingOpen sess id target => (t.beginPendingOpen sess id target).2
  | .queuePendingOpenPayload sess id target payload =>
    (t.queuePendingOpenPayload sess id target payload).2
  | .cancelPendingOpensForSession sess => t.cancelPendingOpensForSession sess
  | .take r => t.take r
  | .release r => t.release r
  | .dropGuard r => t.dropGuard r
  | .drain r => t.drain r
  | .count r => t.count r

end PendingTable

/-- Replacing one element changes a sum by the difference of the two. -/
lemma sum_map_set {α : Type} (f : α → Nat) {xs : List α} {r : Nat} {a : α} (hr : xs[r]? = some a)
    (b : α) : ((xs.set r b).map f).sum + f a = (xs.map f).sum + f b := by
  induction xs generalizing r with
  | nil => cases hr
  | cons x xs ih =>
    cases r with
    | zero =>
      obtain rfl : x = a := some.inj hr
      simp only [set_cons_zero, map_cons, sum_cons]
      omega
    | succ r =>
      have hrest := ih (r := r) hr
      simp only [set_cons_succ, map_cons, sum_cons]
      omega

def QueuedOpen.Names (w : QueuedOpen) (l : OpenLookup) : Prop :=
  w.session = l.session ∧ w.id = l.id ∧ w.target = l.target

lemma QueuedOpen.Names.congr {w : QueuedOpen} {l m : OpenLookup} (h : w.Names l)
    (hsession : m.session = l.session) (hid : m.id = l.id) (htarget : m.target = l.target) :
    w.Names m :=
  ⟨h.1.trans hsession.symm, h.2.1.trans hid.symm, h.2.2.trans htarget.symm⟩

lemma octets_append (xs ys : List QueuedOpen) : octets (xs ++ ys) = octets xs + octets ys := by
  unfold octets
  rw [map_append, sum_append]

/-- What holds of one lookup. -/
structure OpenLookup.Sound (l : OpenLookup) : Prop where
  length_le : l.queued.length ≤ maxPendingDnsPayloads
  /-- Nothing is queued once the drop has drained the queue. -/
  emptied : l.keyed = false → l.stage = .dropping ∨ l.queued = []
  names : ∀ w ∈ l.queued ++ l.drained, w.Names l

namespace PendingTable

structure Accounted (t : PendingTable) : Prop where
  bytes : t.bytes = (t.lookups.map fun l => octets (l.queued ++ l.unreleased)).sum
  bytes_le : t.bytes ≤ maxPendingDnsBytes
  size_le : t.entries.size ≤ maxPendingDnsOpens
  sound : ∀ l ∈ t.lookups, l.Sound
  /-- The map has the lookups whose guard has its key, and no others. -/
  entries : ∀ r key, t.entries.lookup key = some r ↔
    ∃ l, t.lookups[r]? = some l ∧ l.keyed = true ∧ key = (l.session, l.id)
  taken : ∀ x ∈ t.taken, ∃ l, t.lookups[x.1]? = some l ∧ x.2.Names l
  places : ∀ w, (t.lookups.map fun l => (l.queued ++ l.drained).count w).sum +
    (t.taken.map Prod.snd).count w + t.counted.count w = t.accepted.count w
  serials : t.accepted.map QueuedOpen.serial = List.range t.accepted.length

variable {t t' : PendingTable} {r : Nat} {l m : OpenLookup}

lemma new_accounted : new.Accounted where
  bytes := rfl
  bytes_le := Nat.zero_le _
  size_le := Nat.zero_le _
  sound l hl := absurd hl not_mem_nil
  entries r key := by
    constructor
    · rintro ⟨⟩
    · rintro ⟨l, hl, -⟩
      cases hl
  taken x hx := absurd hx not_mem_nil
  places _ := rfl
  serials := rfl

section

variable (h : t.Accounted) (hr : t.lookups[r]? = some l) (hsession : m.session = l.session)
  (hid : m.id = l.id) (hentries : t'.entries = t.entries ∧ m.keyed = l.keyed ∨
    t'.entries = t.entries.erase (l.session, l.id) ∧ l.keyed = true ∧ m.keyed = false)
include h hr hsession hid hentries

/-- The map follows one lookup, which keeps its key or loses it. -/
lemma Accounted.entries_update
    (hget : ∀ j, t'.lookups[j]? = if j = r then some m else t.lookups[j]?) (j : Nat) (key : UInt32 × UInt32) : t'.entries.lookup key = some j ↔
      ∃ l, t'.lookups[j]? = some l ∧ l.keyed = true ∧ key = (l.session, l.id) := by
  have hself : t.entries.lookup key = some r ↔ l.keyed = true ∧ key = (l.session, l.id) := by
    rw [h.entries]
    constructor
    · rintro ⟨l₀, hl₀, hkeyed, hkey⟩
      obtain rfl : l = l₀ := some.inj (hr.symm.trans hl₀)
      exact ⟨hkeyed, hkey⟩
    · exact fun hkeyed => ⟨l, hr, hkeyed⟩
  rw [hget]
  rcases hentries with ⟨hsame, hkeep⟩ | ⟨herase, hkeyed, hgone⟩
  · rw [hsame]
    by_cases hj : j = r
    · rw [if_pos hj, hj, hself]
      constructor
      · rintro ⟨hkeyed, hkey⟩
        exact ⟨m, rfl, hkeep.trans hkeyed, by rw [hkey, hsession, hid]⟩
      · rintro ⟨l₀, hl₀, hkeyed, hkey⟩
        obtain rfl : m = l₀ := some.inj hl₀
        exact ⟨hkeep.symm.trans hkeyed, by rw [hkey, hsession, hid]⟩
    · rw [if_neg hj]
      exact h.entries j key
  rw [herase, Map.lookup_erase_iff]
  by_cases hj : j = r
  · rw [if_pos hj, hj, hself]
    constructor
    · rintro ⟨hne, -, hkey⟩
      exact absurd hkey hne
    · rintro ⟨l₀, hl₀, hkeyed₀, -⟩
      obtain rfl : m = l₀ := some.inj hl₀
      exact absurd (hgone.symm.trans hkeyed₀) (by decide)
  -- Two lookups with one key would be one entry of the map.
  · rw [if_neg hj, ← h.entries j key]
    exact and_iff_right_of_imp fun hother hkey =>
      hj (some.inj (hother.symm.trans (hself.mpr ⟨hkeyed, hkey⟩)))

lemma Accounted.update (hlookups : t'.lookups = t.lookups.set r m)
    (htarget : m.target = l.target) (hsound : m.Sound)
    (hbytes : t'.bytes + octets (l.queued ++ l.unreleased) =
      t.bytes + octets (m.queued ++ m.unreleased)) (hcap : t'.bytes ≤ maxPendingDnsBytes)
    (htaken : ∀ x ∈ t'.taken, x ∈ t.taken ∨ x.1 = r ∧ x.2.Names l)
    (hplaces : ∀ w, (m.queued ++ m.drained).count w + (t'.taken.map Prod.snd).count w +
        t'.counted.count w + t.accepted.count w =
      (l.queued ++ l.drained).count w + (t.taken.map Prod.snd).count w + t.counted.count w +
        t'.accepted.count w)
    (hserials : t'.accepted.map QueuedOpen.serial = List.range t'.accepted.length) :
    t'.Accounted := by
  have hlen : r < t.lookups.length := (List.getElem?_eq_some_iff.mp hr).1
  have hget : ∀ j, t'.lookups[j]? = if j = r then some m else t.lookups[j]? := by
    intro j
    rw [hlookups, getElem?_set]
    by_cases hj : j = r
    · subst hj
      rw [if_pos rfl, if_pos rfl, if_pos hlen]
    · rw [if_neg (Ne.symm hj), if_neg hj]
  refine ⟨?_, hcap, ?_, ?_, ?_, ?_, ?_, hserials⟩
  · have hsum := sum_map_set (fun l => octets (l.queued ++ l.unreleased)) hr m
    rw [← hlookups] at hsum
    have hold := h.bytes
    omega
  · rcases hentries with ⟨hsame, -⟩ | ⟨herase, -, -⟩
    · rw [hsame]
      exact h.size_le
    · rw [herase]
      exact (Map.size_erase_le _ _).trans h.size_le
  · intro x hx
    rw [hlookups] at hx
    rcases mem_or_eq_of_mem_set hx with hx | rfl
    · exact h.sound x hx
    · exact hsound
  · exact h.entries_update hr hsession hid hentries hget
  · intro x hx
    rcases htaken x hx with hold | ⟨hxr, hnames⟩
    · obtain ⟨l₀, hl₀, hnames⟩ := h.taken x hold
      rw [hget]
      by_cases hj : x.1 = r
      · rw [if_pos hj]
        rw [hj, hr] at hl₀
        obtain rfl : l = l₀ := some.inj hl₀
        exact ⟨m, rfl, hnames.congr hsession hid htarget⟩
      · rw [if_neg hj]
        exact ⟨l₀, hl₀, hnames⟩
    · rw [hget, if_pos hxr]
      exact ⟨m, rfl, hnames.congr hsession hid htarget⟩
  · intro w
    have hsum := sum_map_set (fun l => (l.queued ++ l.drained).count w) hr m
    rw [← hlookups] at hsum
    have hold := h.places w
    have hstep := hplaces w
    omega

end

lemma Accounted.entries_begin (h : t.Accounted) {sess id : UInt32}
    (hnone : t.entries.lookup (sess, id) = none) (target : TargetAddr) (j : Nat)
    (key : UInt32 × UInt32) :
    (t.entries.insert (sess, id) t.lookups.length).lookup key = some j ↔
      ∃ l, (t.lookups ++ [⟨sess, id, target, false, [], .held⟩])[j]? = some l ∧
        l.keyed = true ∧ key = (l.session, l.id) := by
  by_cases hkey : key = (sess, id)
  · rw [hkey, AList.lookup_insert]
    constructor
    · intro hj
      obtain rfl : t.lookups.length = j := some.inj hj
      exact ⟨_, getElem?_concat_length, rfl, rfl⟩
    rintro ⟨l, hl, hkeyed, hname⟩
    rcases Nat.lt_or_ge j t.lookups.length with hlt | hge
    · rw [getElem?_append_left hlt] at hl
      have hlookup := (h.entries j (sess, id)).mpr ⟨l, hl, hkeyed, hname⟩
      cases hnone.symm.trans hlookup
    have hlen := (List.getElem?_eq_some_iff.mp hl).1
    rw [List.length_append, List.length_singleton] at hlen
    rw [show t.lookups.length = j by omega]
  · rw [AList.lookup_insert_ne hkey, h.entries]
    constructor
    · rintro ⟨l, hl, hkeyed⟩
      exact ⟨l, (List.getElem?_append_left (List.getElem?_eq_some_iff.mp hl).1).trans hl, hkeyed⟩
    · rintro ⟨l, hl, hkeyed, hname⟩
      rcases Nat.lt_or_ge j t.lookups.length with hlt | hge
      · rw [getElem?_append_left hlt] at hl
        exact ⟨l, hl, hkeyed, hname⟩
      rw [getElem?_append_right hge] at hl
      obtain rfl := mem_singleton.mp (mem_of_getElem? hl)
      exact absurd hname hkey

lemma Accounted.beginPendingOpen (h : t.Accounted) (sess id : UInt32) (target : TargetAddr) :
    (t.beginPendingOpen sess id target).2.Accounted := by
  unfold PendingTable.beginPendingOpen
  by_cases hdup : (t.entries.lookup (sess, id)).isSome = true
  · rw [if_pos hdup]
    exact h
  by_cases hfull : maxPendingDnsOpens ≤ t.entries.size
  · rw [if_neg hdup, if_pos hfull]
    exact h
  rw [if_neg hdup, if_neg hfull]
  have hnone : t.entries.lookup (sess, id) = none := not_isSome_iff_eq_none.mp hdup
  refine ⟨?_, h.bytes_le, ?_, ?_, ?_, ?_, ?_, h.serials⟩
  · simpa [octets, OpenLookup.unreleased] using h.bytes
  · rw [Map.size_insert_of_lookup_eq_none hnone]
    omega
  · intro l hl
    rcases mem_append.mp hl with hl | hl
    · exact h.sound l hl
    obtain rfl := mem_singleton.mp hl
    exact ⟨Nat.zero_le _, fun hkeyed => (Bool.false_ne_true hkeyed.symm).elim,
      fun w hw => absurd hw not_mem_nil⟩
  · exact h.entries_begin hnone target
  · intro x hx
    obtain ⟨l, hl, hnames⟩ := h.taken x hx
    exact ⟨l, List.getElem?_append_left (List.getElem?_eq_some_iff.mp hl).1 ▸ hl, hnames⟩
  · intro w
    simpa [OpenLookup.drained] using h.places w

/-- What a reservation adds. -/
lemma reservePendingBytes_eq_some {current n bytes : Nat}
    (h : reservePendingBytes current n = some bytes) (hcurrent : current ≤ maxPendingDnsBytes) :
    bytes = current + n ∧ bytes ≤ maxPendingDnsBytes := by
  unfold reservePendingBytes at h
  by_cases hzero : n = 0
  · rw [if_pos hzero] at h
    obtain rfl : current = bytes := some.inj h
    exact ⟨by omega, hcurrent⟩
  rw [if_neg hzero] at h
  obtain ⟨next, hnext, h⟩ := bind_eq_some_iff.mp h
  obtain ⟨hsum, -⟩ := checkedAdd_eq_some.mp hnext
  by_cases hle : next ≤ maxPendingDnsBytes
  · rw [if_pos hle] at h
    obtain rfl : next = bytes := some.inj h
    exact ⟨hsum, hle⟩
  · rw [if_neg hle] at h
    cases h

lemma queuePendingOpenPayload_cases (sess id : UInt32) (target : TargetAddr) (payload : Bytes) :
    (t.queuePendingOpenPayload sess id target payload).2 = t ∨
      ∃ r l bytes, t.entries.lookup (sess, id) = some r ∧ t.lookups[r]? = some l ∧
        l.target = target ∧ l.queued.length < maxPendingDnsPayloads ∧
        reservePendingBytes t.bytes payload.length = some bytes ∧
        (t.queuePendingOpenPayload sess id target payload).2 =
          t.enqueue r l bytes ⟨sess, id, target, payload, t.accepted.length⟩ := by
  unfold queuePendingOpenPayload
  cases hfound : (t.entries.lookup (sess, id)).bind fun r =>
      (t.lookups[r]?).map fun l => (r, l) with
  | none => exact .inl rfl
  | some found =>
    obtain ⟨r, hentry, hmap⟩ := bind_eq_some_iff.mp hfound
    obtain ⟨l, hl, rfl⟩ := map_eq_some_iff.mp hmap
    dsimp only
    by_cases hcancelled : l.cancelled = true
    · rw [if_pos hcancelled]
      exact .inl rfl
    by_cases htarget : l.target ≠ target
    · rw [if_neg hcancelled, if_pos htarget]
      exact .inl rfl
    by_cases hfull : maxPendingDnsPayloads ≤ l.queued.length
    · rw [if_neg hcancelled, if_neg htarget, if_pos hfull]
      exact .inl rfl
    rw [if_neg hcancelled, if_neg htarget, if_neg hfull]
    cases hreserve : reservePendingBytes t.bytes payload.length with
    | none => exact .inl rfl
    | some bytes =>
      exact .inr ⟨r, l, bytes, hentry, hl, not_not.mp htarget, Nat.not_le.mp hfull, rfl, rfl⟩

section

variable (h : t.Accounted) (sess id : UInt32) (target : TargetAddr) (payload : Bytes)
include h

lemma Accounted.queuePendingOpenPayload :
    (t.queuePendingOpenPayload sess id target payload).2.Accounted := by
  rcases t.queuePendingOpenPayload_cases sess id target payload with
    hsame | ⟨r, l, bytes, hentry, hl, htarget, hroom, hreserve, hqueued⟩
  · rw [hsame]
    exact h
  rw [hqueued]
  obtain ⟨hsum, hcap⟩ := reservePendingBytes_eq_some hreserve h.bytes_le
  obtain ⟨l₀, hl₀, hkeyed, hkey⟩ := (h.entries r (sess, id)).mp hentry
  obtain rfl : l = l₀ := some.inj (hl.symm.trans hl₀)
  have hsound := h.sound l (mem_of_getElem? hl)
  refine h.update (m := { l with queued := l.queued ++ [_] }) hl rfl rfl
    (.inl ⟨rfl, rfl⟩) rfl rfl ?_ ?_ hcap (fun x hx => .inl hx) ?_ ?_
  · refine ⟨?_, fun hnot => absurd (hkeyed.symm.trans hnot) (by decide), fun w hw => ?_⟩
    · rw [length_append, length_singleton]
      exact hroom
    · obtain ⟨hsess, hid⟩ := Prod.mk.inj hkey
      rcases mem_append.mp hw with hw | hw
      · rcases mem_append.mp hw with hw | hw
        · exact hsound.names w (mem_append_left _ hw)
        · obtain rfl := mem_singleton.mp hw
          exact ⟨hsess, hid, htarget.symm⟩
      · exact hsound.names w (mem_append_right _ hw)
  · change bytes + octets (l.queued ++ l.unreleased) =
      t.bytes + octets ((l.queued ++ [_]) ++ l.unreleased)
    rw [octets_append, octets_append, octets_append]
    simp only [octets, map_cons, map_nil, sum_cons, sum_nil]
    omega
  · intro w
    change ((l.queued ++ [_]) ++ l.drained).count w + (t.taken.map Prod.snd).count w +
        t.counted.count w + t.accepted.count w = (l.queued ++ l.drained).count w +
      (t.taken.map Prod.snd).count w + t.counted.count w + (t.accepted ++ [_]).count w
    simp only [count_append]
    omega
  · change (t.accepted ++ [_]).map QueuedOpen.serial = List.range (t.accepted ++ [_]).length
    rw [map_append, h.serials, length_append, length_singleton, range_succ]
    rfl

lemma Accounted.mapIdx {mark : Nat → OpenLookup → OpenLookup}
    (hmark : ∀ r l, ∃ cancelled, mark r l = { l with cancelled := cancelled }) :
    { t with lookups := t.lookups.mapIdx mark }.Accounted := by
  have hmap : ∀ {α : Type} (f : OpenLookup → α), (∀ l c, f { l with cancelled := c } = f l) →
      (t.lookups.mapIdx mark).map f = t.lookups.map f := by
    intro α f hf
    refine List.ext_getElem? fun j => ?_
    rw [List.getElem?_map, List.getElem?_mapIdx, List.getElem?_map, Option.map_map]
    refine congrArg (fun g => Option.map g t.lookups[j]?) (funext fun l => ?_)
    obtain ⟨cancelled, hl⟩ := hmark j l
    exact (congrArg f hl).trans (hf l cancelled)
  have hget : ∀ {j : Nat} {l : OpenLookup}, (t.lookups.mapIdx mark)[j]? = some l →
      ∃ (l₀ : OpenLookup) (cancelled : Bool), t.lookups[j]? = some l₀ ∧
        l = { l₀ with cancelled := cancelled } := by
    intro j l hl
    rw [getElem?_mapIdx] at hl
    obtain ⟨l₀, hl₀, rfl⟩ := map_eq_some_iff.mp hl
    obtain ⟨cancelled, hmarked⟩ := hmark j l₀
    exact ⟨l₀, cancelled, hl₀, hmarked⟩
  have hset : ∀ {j : Nat} {l : OpenLookup}, t.lookups[j]? = some l →
      ∃ cancelled, (t.lookups.mapIdx mark)[j]? = some { l with cancelled := cancelled } := by
    intro j l hl
    obtain ⟨cancelled, hmarked⟩ := hmark j l
    exact ⟨cancelled, by rw [getElem?_mapIdx, hl, map_some, hmarked]⟩
  refine ⟨?_, h.bytes_le, h.size_le, ?_, ?_, ?_, ?_, h.serials⟩
  · rw [h.bytes, hmap _ fun _ _ => rfl]
  · intro l hl
    obtain ⟨j, hj⟩ := mem_iff_getElem?.mp hl
    obtain ⟨l₀, cancelled, hl₀, rfl⟩ := hget hj
    have hsound := h.sound l₀ (mem_of_getElem? hl₀)
    exact ⟨hsound.length_le, hsound.emptied, hsound.names⟩
  · intro r key
    rw [h.entries]
    constructor
    · rintro ⟨l, hl, hkeyed⟩
      obtain ⟨cancelled, hl'⟩ := hset hl
      exact ⟨_, hl', hkeyed⟩
    · rintro ⟨l, hl, hkeyed⟩
      obtain ⟨l₀, cancelled, hl₀, rfl⟩ := hget hl
      exact ⟨l₀, hl₀, hkeyed⟩
  · intro x hx
    obtain ⟨l, hl, hnames⟩ := h.taken x hx
    obtain ⟨cancelled, hl'⟩ := hset hl
    exact ⟨_, hl', hnames⟩
  · intro w
    have hplaces := h.places w
    rw [← hmap (fun l => (l.queued ++ l.drained).count w) fun _ _ => rfl] at hplaces
    exact hplaces

lemma Accounted.cancelPendingOpensForSession : (t.cancelPendingOpensForSession sess).Accounted := by
  refine h.mapIdx fun r l => ?_
  by_cases hmarked : (t.entries.entries.any fun e => e.1.1 == sess && e.2 == r) = true
  · exact ⟨true, if_pos hmarked⟩
  · exact ⟨l.cancelled, if_neg hmarked⟩

lemma Accounted.atLookup {f : OpenLookup → PendingTable}
    (hf : ∀ l, t.lookups[r]? = some l → l.Sound → (f l).Accounted) :
    (t.atLookup r f).Accounted := by
  unfold PendingTable.atLookup
  cases hl : t.lookups[r]? with
  | none => exact h
  | some l => exact hf l hl (h.sound l (mem_of_getElem? hl))

/-- A guard that goes on to a stage with the same payloads in its hands. -/
lemma Accounted.restage (hl : t.lookups[r]? = some l) {q : List QueuedOpen} {stage : GuardStage}
    (hsound : OpenLookup.Sound { l with queued := q, stage := stage })
    (hkeyed : OpenLookup.keyed { l with queued := q, stage := stage } = l.keyed)
    (hbytes : q ++ OpenLookup.unreleased { l with queued := q, stage := stage } =
      l.queued ++ l.unreleased)
    (hplaces : q ++ OpenLookup.drained { l with queued := q, stage := stage } =
      l.queued ++ l.drained) :
    { t with lookups := t.lookups.set r { l with queued := q, stage := stage } }.Accounted := by
  refine h.update (m := { l with queued := q, stage := stage }) hl rfl rfl (.inl ⟨rfl, hkeyed⟩) rfl
    rfl hsound ?_ h.bytes_le (fun x hx => .inl hx) ?_ h.serials
  · rw [← hbytes]
  · intro w
    rw [← hplaces]

lemma Accounted.take (r : Nat) : (t.take r).Accounted := by
  refine h.atLookup fun ⟨sess, id, target, cancelled, queued, stage⟩ hl hsound => ?_
  cases stage with
  | held => exact h.restage hl ⟨Nat.zero_le _, fun _ => .inr rfl, fun w hw =>
      hsound.names w (mem_append_left _ hw)⟩ rfl (append_nil _).symm (append_nil _).symm
  | _ => exact h

/-- What a release takes from the counter is counted there. -/
lemma Accounted.octets_released (hl : t.lookups[r]? = some l) :
    t.bytes - octets l.unreleased + octets (l.queued ++ l.unreleased) =
      t.bytes + octets (l.queued ++ []) := by
  have hsum := sum_map_set (fun l => octets (l.queued ++ l.unreleased)) hl
    { l with queued := [], stage := .gone }
  have hzero : octets (([] : List QueuedOpen) ++
      OpenLookup.unreleased { l with queued := [], stage := .gone }) = 0 := rfl
  have hboth := octets_append l.queued l.unreleased
  rw [h.bytes, append_nil]
  dsimp only at hsum
  omega

lemma Accounted.release (r : Nat) : (t.release r).Accounted := by
  refine h.atLookup fun ⟨sess, id, target, cancelled, queued, stage⟩ hl hsound => ?_
  have hbytes := h.octets_released hl
  cases stage with
  | taking ds =>
    refine h.update (m := ⟨sess, id, target, cancelled, queued, .held⟩) hl rfl rfl
      (.inl ⟨rfl, rfl⟩) rfl rfl ?_ hbytes ((Nat.sub_le _ _).trans h.bytes_le) ?_ ?_ h.serials
    · refine ⟨hsound.length_le, fun hnot => (Bool.false_ne_true hnot.symm).elim, fun w hw => ?_⟩
      exact hsound.names w (mem_append_left _ (append_nil queued ▸ hw))
    · intro x hx
      rcases mem_append.mp hx with hx | hx
      · exact .inl hx
      · obtain ⟨w, hw, rfl⟩ := mem_map.mp hx
        exact .inr ⟨rfl, hsound.names w (mem_append_right _ hw)⟩
    · intro w
      have hsnd : (ds.map fun w => (r, w)).map Prod.snd = ds := by
        rw [List.map_map]
        exact List.map_id ds
      simp only [OpenLookup.drained, map_append, hsnd, count_append, count_nil]
      omega
  | releasing ds =>
    exact h.update (m := ⟨sess, id, target, cancelled, queued, .counting ds⟩) hl rfl rfl
      (.inl ⟨rfl, rfl⟩) rfl rfl
      ⟨hsound.length_le, fun _ => .inr ((hsound.emptied rfl).resolve_left nofun), hsound.names⟩
      hbytes ((Nat.sub_le _ _).trans h.bytes_le) (fun x hx => .inl hx)
      (fun w => rfl) h.serials
  | _ => exact h

lemma Accounted.dropGuard (r : Nat) : (t.dropGuard r).Accounted := by
  refine h.atLookup fun ⟨sess, id, target, cancelled, queued, stage⟩ hl hsound => ?_
  cases stage with
  | held =>
    exact h.update (m := ⟨sess, id, target, cancelled, queued, .dropping⟩) hl rfl rfl
      (.inr ⟨rfl, rfl, rfl⟩) rfl rfl ⟨hsound.length_le, fun _ => .inl rfl, hsound.names⟩ rfl h.bytes_le
      (fun x hx => .inl hx) (fun w => rfl) h.serials
  | _ => exact h

lemma Accounted.drain (r : Nat) : (t.drain r).Accounted := by
  refine h.atLookup fun ⟨sess, id, target, cancelled, queued, stage⟩ hl hsound => ?_
  cases stage with
  | dropping => exact h.restage hl ⟨Nat.zero_le _, fun _ => .inr rfl, fun w hw =>
      hsound.names w (mem_append_left _ hw)⟩ rfl (append_nil _).symm (append_nil _).symm
  | _ => exact h

lemma Accounted.count (r : Nat) : (t.count r).Accounted := by
  refine h.atLookup fun ⟨sess, id, target, cancelled, queued, stage⟩ hl hsound => ?_
  cases stage with
  | counting ds =>
    have hempty := (hsound.emptied rfl).resolve_left nofun
    cases ds with
    | nil =>
      exact h.restage hl ⟨hsound.length_le, fun _ => .inr hempty, hsound.names⟩ rfl rfl rfl
    | cons w ds =>
      refine h.update (m := ⟨sess, id, target, cancelled, queued, .counting ds⟩) hl rfl rfl
        (.inl ⟨rfl, rfl⟩) rfl rfl
        ⟨hsound.length_le, fun _ => .inr hempty, fun x hx => hsound.names x ?_⟩ rfl h.bytes_le (fun x hx => .inl hx) ?_ h.serials
      · rcases mem_append.mp hx with hx | hx
        · exact mem_append_left _ hx
        · exact mem_append_right _ (mem_cons_of_mem w hx)
      · intro x
        simp only [OpenLookup.drained, count_append, count_cons, count_nil]
        omega
  | _ => exact h

lemma Accounted.next (ev : PendingEvent) : (t.next ev).Accounted := by
  cases ev with
  | beginPendingOpen sess id target => exact h.beginPendingOpen sess id target
  | queuePendingOpenPayload sess id target payload =>
    exact h.queuePendingOpenPayload sess id target payload
  | cancelPendingOpensForSession sess => exact h.cancelPendingOpensForSession sess
  | take r => exact h.take r
  | release r => exact h.release r
  | dropGuard r => exact h.dropGuard r
  | drain r => exact h.drain r
  | count r => exact h.count r

end

section

variable (h : t.Accounted)
include h

def queuedOctets (t : PendingTable) : Nat := (t.lookups.map fun l => octets l.queued).sum

/-- Payloads in a queue or in the hands of a call. -/
def waiting (t : PendingTable) : List QueuedOpen := t.lookups.flatMap fun l => l.queued ++ l.drained

/-- No call is in progress. -/
def Idle (t : PendingTable) : Prop := ∀ l ∈ t.lookups, l.idle = true

lemma Accounted.queuedOctets_le : t.queuedOctets ≤ t.bytes := by
  rw [h.bytes]
  refine sum_le_sum fun l _ => ?_
  rw [octets_append]
  exact Nat.le_add_right _ _

lemma Accounted.bytes_of_idle (hidle : t.Idle) : t.bytes = t.queuedOctets := by
  rw [h.bytes]
  congr 1
  refine map_congr_left fun l hl => ?_
  have hnone : l.unreleased = [] := by
    have hl := hidle l hl
    unfold OpenLookup.idle at hl
    unfold OpenLookup.unreleased
    cases hstage : l.stage <;> rw [hstage] at hl <;> first | rfl | cases hl
  rw [hnone, append_nil]

lemma Accounted.serial_nodup : t.accepted.Nodup :=
  Nodup.of_map QueuedOpen.serial (h.serials ▸ nodup_range)

/-- Every payload that was queued is in one place. -/
lemma Accounted.count_places {w : QueuedOpen} (hw : w ∈ t.accepted) :
    t.waiting.count w + (t.taken.map Prod.snd).count w + t.counted.count w = 1 := by
  have hplaces := h.places w
  rw [count_eq_one_of_mem h.serial_nodup hw] at hplaces
  unfold waiting
  rw [count_flatMap]
  exact hplaces

/-- Lookups without a guard hold no payload. -/
lemma Accounted.waiting_of_gone (hgone : ∀ l ∈ t.lookups, l.stage = .gone) : t.waiting = [] := by
  refine flatMap_eq_nil_iff.mpr fun l hl => ?_
  have hstage := hgone l hl
  have hdrained : l.drained = [] := by simp [OpenLookup.drained, hstage]
  have hkeyed : l.keyed = false := by simp [OpenLookup.keyed, hstage]
  have hqueued : l.queued = [] := ((h.sound l hl).emptied hkeyed).resolve_left (by
    rw [hstage]
    exact GuardStage.noConfusion)
  rw [hdrained, hqueued, append_nil]

end

/-- Over every run the octet counter covers what is queued, exactly between the calls; it stays
within its cap, as the lookups and the payloads behind each do; every payload that was queued is in
one place, what a lookup took was queued for its session, id and target, and once the guards are
gone every payload was taken once or counted once. -/
theorem opens_accounted (es : List PendingEvent) :
    let t := after next new es
    t.queuedOctets ≤ t.bytes ∧ (t.Idle → t.bytes = t.queuedOctets) ∧
      t.bytes ≤ maxPendingDnsBytes ∧ t.entries.size ≤ maxPendingDnsOpens ∧
      (∀ l ∈ t.lookups, l.queued.length ≤ maxPendingDnsPayloads) ∧
      (∀ w ∈ t.accepted,
        t.waiting.count w + (t.taken.map Prod.snd).count w + t.counted.count w = 1) ∧
      (∀ x ∈ t.taken, ∃ l, t.lookups[x.1]? = some l ∧ x.2.Names l) ∧
      ((∀ l ∈ t.lookups, l.stage = .gone) → ∀ w ∈ t.accepted,
        (t.taken.map Prod.snd).count w + t.counted.count w = 1) := by
  intro t
  have h : t.Accounted := after_of_kept (fun _ ev h => h.next ev) new_accounted es
  refine ⟨h.queuedOctets_le, h.bytes_of_idle, h.bytes_le, h.size_le,
    fun l hl => (h.sound l hl).length_le, fun w hw => h.count_places hw, h.taken, ?_⟩
  intro hgone w hw
  have hplace := h.count_places hw
  rw [h.waiting_of_gone hgone, count_nil, Nat.zero_add] at hplace
  exact hplace

end PendingTable

end MyQuic2
