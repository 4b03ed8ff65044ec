import MyQuic2.Client.Pool

/-!
# Client start-up

What the client fixes before it serves: the thresholds by which a connection counts as alive, and
the cores that the threads of the slots and the workers of the main runtime run on.
-/

namespace MyQuic2

open List

def keepAliveMaxSecs : Nat := 300

def defaultIdleTimeoutSecs : Nat := 60

def idleTimeoutMinSecs : Nat := 15

def idleTimeoutMaxSecs : Nat := 900

def watchdogPollSecs : Nat := 1

section

variable (keepAliveSecs watchdogSecs : Nat)

def clampKeepAlive : Nat := clampTo keepAliveSecs keepAliveMaxSecs

def resolveIdleTimeoutSecs (configured : Option Nat) : Nat :=
  let keepalive := clampKeepAlive keepAliveSecs
  let floor := max (saturatingMul keepalive 3) idleTimeoutMinSecs
  let default := max (saturatingMul keepalive 3) defaultIdleTimeoutSecs
  max floor (min (configured.getD default) idleTimeoutMaxSecs)

def watchdogSilenceSecs (idleTimeoutSecs : Nat) : Nat :=
  min (max (saturatingMul idleTimeoutSecs 2 / 3) 8) (idleTimeoutSecs - 1)

def dataStaleThresholdMs : Nat :=
  (clampKeepAlive keepAliveSecs + watchdogSecs) / 2 * 1000

/-- The thresholds that the client starts with. -/
structure Liveness where
  keepAliveSecs : Nat
  idleSecs : Nat
  watchdogSecs : Nat
  dataStaleMs : Nat

def Liveness.configure (idleTimeoutSecs : Option Nat) : Liveness :=
  let keepalive := clampKeepAlive keepAliveSecs
  let idleSecs := resolveIdleTimeoutSecs keepAliveSecs idleTimeoutSecs
  let watchdogSecs := watchdogSilenceSecs idleSecs
  ⟨keepalive, idleSecs, watchdogSecs, dataStaleThresholdMs keepalive watchdogSecs⟩

end

/-- A healthy idle connection is not stale, a stale one is given up later, and only then would it
time out. -/
structure Liveness.Ordered (l : Liveness) : Prop where
  healthy : (l.keepAliveSecs + watchdogPollSecs) * 1000 < l.dataStaleMs
  stale : l.dataStaleMs < l.watchdogSecs * 1000
  silent : l.watchdogSecs < l.idleSecs

lemma idle_bounds (keepAliveSecs : Nat) (configured : Option Nat) :
    3 * clampKeepAlive keepAliveSecs ≤ resolveIdleTimeoutSecs keepAliveSecs configured ∧
      15 ≤ resolveIdleTimeoutSecs keepAliveSecs configured ∧
      resolveIdleTimeoutSecs keepAliveSecs configured ≤ 900 := by
  simp only [resolveIdleTimeoutSecs, clampKeepAlive, clampTo, keepAliveMaxSecs, saturatingMul,
    usizeSize, idleTimeoutMinSecs, idleTimeoutMaxSecs]
  omega

theorem thresholds_ordered (keepAliveSecs : Nat) (idleTimeoutSecs : Option Nat) :
    (Liveness.configure keepAliveSecs idleTimeoutSecs).Ordered := by
  obtain ⟨hkeep, hmin, hmax⟩ := idle_bounds keepAliveSecs idleTimeoutSecs
  have hpos : 1 ≤ clampKeepAlive keepAliveSecs ∧ clampKeepAlive keepAliveSecs ≤ 300 := by
    simp only [clampKeepAlive, clampTo, keepAliveMaxSecs]
    omega
  have hclamp : clampKeepAlive (clampKeepAlive keepAliveSecs) = clampKeepAlive keepAliveSecs := by
    simp only [clampKeepAlive, clampTo, keepAliveMaxSecs]
    omega
  have hwatchdog : watchdogSilenceSecs (resolveIdleTimeoutSecs keepAliveSecs idleTimeoutSecs) =
      resolveIdleTimeoutSecs keepAliveSecs idleTimeoutSecs * 2 / 3 := by
    simp only [watchdogSilenceSecs, saturatingMul, usizeSize]
    omega
  simp only [Liveness.configure, hwatchdog, dataStaleThresholdMs, hclamp]
  constructor <;> dsimp only [watchdogPollSecs] <;> omega

/-- Workers of the main runtime: all cores, or those that the pinned slots leave. -/
def mainRuntimeWorkersFor (cores : Nat) (sharded : Bool) (slots : Nat) (pinsSlots : Bool) : Nat :=
  let cores := max cores 1
  if !sharded || !pinsSlots then cores else max (cores - min slots (cores / 2)) 1

lemma mainRuntimeWorkersFor_pinned {cores slots : Nat} (htwo : 2 ≤ slots) (hfits : slots ≤ cores) :
    mainRuntimeWorkersFor cores true slots true = cores - min slots (cores / 2) := by
  simp only [mainRuntimeWorkersFor, Bool.not_true, Bool.or_self, Bool.false_eq_true, if_false]
  omega

/-- Pin the slots in the order they are given, from a rank on. -/
def pinLoop (usable : Nat) : List Nat → Nat → List (Option Nat) → List (Option Nat)
  | [], _, pinCores => pinCores
  | slot :: order, rank, pinCores =>
    pinLoop usable order (rank + 1)
      (if rank < usable then pinCores.set slot (some rank) else pinCores)

namespace ConnPool

variable (pool : ConnPool)

/-- The slots by how much their latency matters. -/
def priorityOrder : List Nat :=
  if pool.udpSplit then
    0 :: pool.classSlots .interactive ++ range' 1 (pool.tcpSlots - 1) ++ pool.classSlots .bulk
  else 0 :: range' 1 (pool.tcpSlots - 1) ++ [pool.udpGlobalSlot 0]

def priorityPinCoresFor (appWorkers cores : Nat) : List (Option Nat) :=
  let cores := max cores 1
  let usable := max (cores - appWorkers) 1
  let slots := pool.slotsTotal
  if slots > cores then replicate slots none
  else pinLoop usable pool.priorityOrder 0 (replicate slots none)

/-- What the plan of the cores promises for so many workers beside the pinned slots. -/
structure PinnedApart (cores workers : Nat) (pinCores : List (Option Nat)) : Prop where
  order : pool.priorityOrder.Perm (range pool.slotsTotal)
  distinct : ∀ (i j c : Nat), pinCores[i]? = some (some c) → pinCores[j]? = some (some c) → i = j
  below : ∀ (i c : Nat), pinCores[i]? = some (some c) → c < cores
  fits : ∀ (i c : Nat), pinCores[i]? = some (some c) →
    pinCores.countP Option.isSome + workers ≤ cores
  first : ∀ i : Nat, (∃ c, pinCores[i]? = some (some c)) ↔ i ∈ pool.priorityOrder.take
    (if pool.slotsTotal ≤ cores then max (cores - workers) 1 else 0)
  crowded : cores < pool.slotsTotal → ∀ (i c : Nat), pinCores[i]? ≠ some (some c)

lemma priorityOrder_perm : pool.priorityOrder.Perm (range pool.slotsTotal) := by
  have hparts := pool.partitioned
  have htcp : range pool.tcpSlots = 0 :: range' 1 (pool.tcpSlots - 1) := by
    obtain ⟨n, hn⟩ := Nat.exists_eq_add_of_lt pool.tcp.1
    rw [hn, Nat.zero_add, range_eq_range', range'_succ, Nat.add_sub_cancel]
  unfold Partitioned at hparts
  unfold priorityOrder
  cases hs : pool.udpSplit with
  | false =>
    simp only [hs, Bool.false_eq_true, if_false] at hparts ⊢
    rw [← hparts.1, htcp]
    simp [classSlots, udpClassSlots, hs]
  | true =>
    simp only [hs, if_true] at hparts ⊢
    rw [← hparts, htcp]
    exact ((perm_append_comm.append_right _).cons 0)

end ConnPool

section

variable {usable : Nat}

lemma lt_of_getElem? {α : Type} {l : List α} {i : Nat} {a : α} (h : l[i]? = some a) :
    i < l.length :=
  (List.getElem?_eq_some_iff.mp h).1

lemma getElem?_pinLoop_of_notMem {order : List Nat} {i : Nat} (hi : i ∉ order) (rank : Nat)
    (pins : List (Option Nat)) : (pinLoop usable order rank pins)[i]? = pins[i]? := by
  induction order generalizing rank pins with
  | nil => rfl
  | cons slot order ih =>
    obtain ⟨hne, hi⟩ := not_or.mp (mem_cons.not.mp hi)
    rw [pinLoop, ih hi]
    split
    · exact getElem?_set_ne (Ne.symm hne)
    · rfl

/-- The slot of a rank gets the core of that rank, as long as there are cores. -/
lemma getElem?_pinLoop {order : List Nat} (hnodup : order.Nodup) {rank : Nat}
    {pins : List (Option Nat)} (hfree : ∀ i ∈ order, pins[i]? = some none) {r i : Nat}
    (hr : order[r]? = some i) :
    (pinLoop usable order rank pins)[i]? =
      some (if rank + r < usable then some (rank + r) else none) := by
  induction order generalizing rank pins r with
  | nil => cases hr
  | cons slot order ih =>
    obtain ⟨hslot, hnodup⟩ := nodup_cons.mp hnodup
    have hself := hfree slot mem_cons_self
    cases r with
    | zero =>
      obtain rfl := Option.some.inj hr
      rw [pinLoop, getElem?_pinLoop_of_notMem hslot, Nat.add_zero]
      by_cases hrank : rank < usable
      · rw [if_pos hrank, if_pos hrank, getElem?_set_self (lt_of_getElem? hself)]
      · rw [if_neg hrank, if_neg hrank, hself]
    | succ r =>
      rw [pinLoop, ih hnodup (fun j hj => ?_) hr, Nat.add_right_comm, Nat.add_assoc]
      have hne : slot ≠ j := by
        rintro rfl
        exact hslot hj
      split
      · rw [getElem?_set_ne hne, hfree j (mem_cons_of_mem _ hj)]
      · exact hfree j (mem_cons_of_mem _ hj)

lemma countP_pinLoop_le (usable : Nat) (order : List Nat) (rank : Nat) (pins : List (Option Nat)) :
    (pinLoop usable order rank pins).countP Option.isSome ≤
      pins.countP Option.isSome + (usable - rank) := by
  induction order generalizing rank pins with
  | nil => exact Nat.le_add_right _ _
  | cons slot order ih =>
    have hset : (pins.set slot (some rank)).countP Option.isSome ≤
        pins.countP Option.isSome + 1 := by
      by_cases hslot : slot < pins.length
      · rw [countP_set hslot]
        exact Nat.add_le_add (Nat.sub_le _ _) (by simp)
      · rw [set_eq_of_length_le (Nat.le_of_not_lt hslot)]
        exact Nat.le_add_right _ _
    rw [pinLoop]
    split <;> exact (ih _ _).trans (by omega)

end

namespace ConnPool

variable (pool : ConnPool)

lemma two_le_slotsTotal : 2 ≤ pool.slotsTotal := by
  have htcp := pool.tcp
  have hbulk := pool.bulk
  unfold slotsTotal udpSlotCount
  split <;> omega

/-- A pinned slot has the core of its rank. -/
lemma priorityPinCoresFor_iff (appWorkers cores i c : Nat) :
    (pool.priorityPinCoresFor appWorkers cores)[i]? = some (some c) ↔
      pool.slotsTotal ≤ cores ∧ c < max (cores - appWorkers) 1 ∧
        pool.priorityOrder[c]? = some i := by
  have hperm := pool.priorityOrder_perm
  have htwo := pool.two_le_slotsTotal
  unfold priorityPinCoresFor
  by_cases hwide : pool.slotsTotal > max cores 1
  · simp only [if_pos hwide, getElem?_replicate]
    constructor
    · split <;> nofun
    · omega
  rw [if_neg hwide, Nat.max_eq_left (show 1 ≤ cores by omega)]
  have hfree : ∀ i ∈ pool.priorityOrder,
      (replicate pool.slotsTotal (none : Option Nat))[i]? = some none := fun i hi =>
    getElem?_replicate_of_lt (mem_range.mp (hperm.mem_iff.mp hi))
  constructor
  · intro h
    by_cases hi : i ∈ pool.priorityOrder
    · obtain ⟨r, hr⟩ := mem_iff_getElem?.mp hi
      rw [getElem?_pinLoop (hperm.nodup_iff.mpr nodup_range) hfree hr, Nat.zero_add] at h
      split at h <;> cases h
      exact ⟨by omega, by assumption, hr⟩
    · rw [getElem?_pinLoop_of_notMem hi, getElem?_replicate] at h
      split at h <;> cases h
  · rintro ⟨-, hc, hr⟩
    rw [getElem?_pinLoop (hperm.nodup_iff.mpr nodup_range) hfree hr, Nat.zero_add, if_pos hc]

lemma pinnedApart {cores workers : Nat}
    (hworkers : pool.slotsTotal ≤ cores → workers = cores - min pool.slotsTotal (cores / 2)) :
    pool.PinnedApart cores workers (pool.priorityPinCoresFor workers cores) := by
  have htwo := pool.two_le_slotsTotal
  have hperm := pool.priorityOrder_perm
  have hlen : pool.priorityOrder.length = pool.slotsTotal := by
    rw [hperm.length_eq, length_range]
  refine ⟨hperm, ?_, ?_, ?_, ?_, ?_⟩
  all_goals simp only [ne_eq, priorityPinCoresFor_iff]
  · rintro i j c ⟨-, -, hi⟩ ⟨-, -, hj⟩
    exact Option.some.inj (hi.symm.trans hj)
  · rintro i c ⟨hfits, -, hi⟩
    exact (lt_of_getElem? hi).trans_le (hlen ▸ hfits)
  · rintro i c ⟨hfits, -⟩
    have hcount := countP_pinLoop_le (max (cores - workers) 1) pool.priorityOrder 0
      (replicate pool.slotsTotal none)
    rw [countP_replicate, if_neg (by simp)] at hcount
    unfold priorityPinCoresFor
    rw [if_neg (by omega), Nat.max_eq_left (show 1 ≤ cores by omega)]
    have := hworkers hfits
    omega
  · intro i
    rw [mem_iff_getElem?]
    by_cases hfits : pool.slotsTotal ≤ cores
    · simp only [hfits, if_true, true_and, getElem?_take]
      refine exists_congr fun c => ?_
      by_cases hc : c < max (cores - workers) 1
      · rw [if_pos hc, and_iff_right hc]
      · rw [if_neg hc]
        exact iff_of_false (fun h => hc h.1) nofun
    · simp [hfits]
  · rintro hcrowded i c ⟨hfits, -⟩
    omega

end ConnPool

/-- On a sharded host that pins its slots, no slot shares a core with another one, and together
with the workers they fit the machine. -/
theorem slots_pinned_apart (cores n udpInteractive udpBulk : Nat) (udpSplit : Bool) :
    (ConnPool.new n udpSplit udpInteractive udpBulk).PinnedApart cores
      (mainRuntimeWorkersFor cores true (plannedSlotCount n udpSplit udpInteractive udpBulk) true)
      ((ConnPool.new n udpSplit udpInteractive udpBulk).priorityPinCoresFor
        (mainRuntimeWorkersFor cores true
          (plannedSlotCount n udpSplit udpInteractive udpBulk) true) cores) :=
  ConnPool.pinnedApart _ (mainRuntimeWorkersFor_pinned (ConnPool.two_le_slotsTotal _))

end MyQuic2
