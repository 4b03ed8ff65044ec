import MyQuic2.Mqp.Addr

/-!
# Connection pool

A pool keeps the TCP slots first and the UDP slots behind them, the interactive shards before the
bulk ones. A new TCP flow is given a slot by its class, the liveness of the slots and a cursor
that all flows share.
-/

namespace MyQuic2

open List

/-- What a UDP slot is for. -/
inductive EgressClass where
  | interactive
  | bulk
  deriving DecidableEq

def maxPoolConns : Nat := 16

def maxUdpInteractiveConns : Nat := 8

def maxUdpEgressConns : Nat := 8

/-- The layout of a pool, within the bounds that its constructor clamps to. -/
structure ConnPool where
  tcpSlots : Nat
  udpSplit : Bool
  interactiveShards : Nat
  bulkShards : Nat
  tcp : 0 < tcpSlots ∧ tcpSlots ≤ maxPoolConns
  interactive : 0 < interactiveShards ∧ interactiveShards ≤ maxUdpInteractiveConns
  bulk : 0 < bulkShards ∧ bulkShards ≤ maxUdpEgressConns

def clampTo (n bound : Nat) : Nat := max 1 (min n bound)

namespace ConnPool

def new (n : Nat) (udpSplit : Bool) (udpInteractiveShards udpBulkShards : Nat) : ConnPool where
  tcpSlots := clampTo n maxPoolConns
  udpSplit := udpSplit
  interactiveShards := if udpSplit then clampTo udpInteractiveShards maxUdpInteractiveConns else 1
  bulkShards := if udpSplit then clampTo udpBulkShards maxUdpEgressConns else 1
  tcp := by unfold clampTo maxPoolConns; omega
  interactive := by unfold clampTo maxUdpInteractiveConns; split <;> omega
  bulk := by unfold clampTo maxUdpEgressConns; split <;> omega

variable (pool : ConnPool)

def udpSlotCount : Nat := if pool.udpSplit then pool.interactiveShards + pool.bulkShards else 1

def udpGlobalSlot (index : Nat) : Nat := pool.tcpSlots + index

def udpClassSlots : EgressClass → List Nat
  | .interactive => if pool.udpSplit then range pool.interactiveShards else [0]
  | .bulk =>
    if pool.udpSplit then
      range' pool.interactiveShards (pool.udpSlotCount - pool.interactiveShards)
    else [0]

/-- All slots of the pool. -/
def slotsTotal : Nat := pool.tcpSlots + pool.udpSlotCount

def classSlots (cls : EgressClass) : List Nat := (pool.udpClassSlots cls).map pool.udpGlobalSlot

def slotUsesBulkPreset (i : Nat) : Bool :=
  if i < pool.tcpSlots then false else !pool.udpSplit || decide (pool.tcpSlots < i)

def slotIsLatencySensitive (i : Nat) : Bool :=
  if i < pool.tcpSlots then decide (i = 0)
  else pool.udpSplit && decide (i < pool.tcpSlots + pool.interactiveShards)

/-- The slot ranges, one behind the other, are all slots of the pool; without the split the two
classes have one slot between them. -/
def Partitioned : Prop :=
  if pool.udpSplit then
    range pool.tcpSlots ++ pool.classSlots .interactive ++ pool.classSlots .bulk =
      range pool.slotsTotal
  else
    range pool.tcpSlots ++ pool.classSlots .interactive = range pool.slotsTotal ∧
      pool.classSlots .bulk = pool.classSlots .interactive

def RolesAgree : Prop :=
  ∀ i < pool.slotsTotal, (pool.slotUsesBulkPreset i = true ↔ i ∈ pool.classSlots .bulk) ∧
    ¬ (pool.slotIsLatencySensitive i = true ∧ pool.slotUsesBulkPreset i = true)

lemma map_udpGlobalSlot (s n : Nat) :
    (range' s n).map pool.udpGlobalSlot = range' (pool.tcpSlots + s) n := by
  rw [← map_add_range']
  rfl

lemma mem_classSlots_bulk {i : Nat} :
    i ∈ pool.classSlots .bulk ↔
      if pool.udpSplit then pool.tcpSlots + pool.interactiveShards ≤ i ∧ i < pool.slotsTotal
      else i = pool.tcpSlots := by
  cases hs : pool.udpSplit with
  | false => simp [classSlots, udpClassSlots, udpGlobalSlot, hs]
  | true =>
    simp only [classSlots, udpClassSlots, hs, if_true, map_udpGlobalSlot, mem_range'_1,
      slotsTotal, udpSlotCount]
    omega

lemma partitioned : pool.Partitioned := by
  unfold Partitioned slotsTotal classSlots
  cases hs : pool.udpSplit with
  | false => simp [udpClassSlots, udpSlotCount, udpGlobalSlot, hs, range_succ]
  | true =>
    simp only [udpClassSlots, hs, if_true, udpSlotCount, range_eq_range', map_udpGlobalSlot,
      Nat.add_sub_cancel_left, Nat.add_zero]
    rw [append_assoc, range'_append_1]
    simpa using range'_append_1 (s := 0)

lemma rolesAgree_iff : pool.RolesAgree ↔ pool.udpSplit = false ∨ pool.interactiveShards = 1 := by
  have hint := pool.interactive
  have hbulk := pool.bulk
  unfold RolesAgree
  simp only [mem_classSlots_bulk, slotUsesBulkPreset, slotIsLatencySensitive, slotsTotal,
    udpSlotCount]
  cases hs : pool.udpSplit with
  | false =>
    simp only [Bool.false_eq_true, if_false, true_or, iff_true]
    intro i hi
    by_cases hlt : i < pool.tcpSlots <;> simp [hlt] <;> omega
  | true =>
    simp only [if_true, Bool.true_eq_false, false_or]
    constructor
    · intro h
      -- the second UDP slot is on the bulk preset, whatever it carries
      have h1 := (h (pool.tcpSlots + 1) (by omega)).2
      simp at h1
      omega
    · intro hone i hi
      by_cases hlt : i < pool.tcpSlots <;> simp [hlt] <;> omega

end ConnPool

def plannedSlotCount (conns : Nat) (udpSplit : Bool) (udpInteractive udpEgress : Nat) : Nat :=
  let tcp := clampTo conns maxPoolConns
  let interactiveShards := if udpSplit then clampTo udpInteractive maxUdpInteractiveConns else 1
  let bulkShards := if udpSplit then clampTo udpEgress maxUdpEgressConns else 1
  let udpSlots := if udpSplit then interactiveShards + bulkShards else 1
  tcp + udpSlots

/-- The ranges of a pool are a partition and its size is the planned one; the roles of its slots
agree exactly if it has no second interactive shard. -/
theorem slot_roles (n udpInteractive udpBulk : Nat) (udpSplit : Bool) :
    (ConnPool.new n udpSplit udpInteractive udpBulk).Partitioned ∧
    plannedSlotCount n udpSplit udpInteractive udpBulk =
      (ConnPool.new n udpSplit udpInteractive udpBulk).slotsTotal ∧
    ((ConnPool.new n udpSplit udpInteractive udpBulk).RolesAgree ↔
      udpSplit = false ∨ udpInteractive ≤ 1) := by
  refine ⟨ConnPool.partitioned _, rfl, ?_⟩
  rw [ConnPool.rolesAgree_iff]
  cases udpSplit with
  | false => simp [ConnPool.new]
  | true =>
    simp only [ConnPool.new, if_true, clampTo, maxUdpInteractiveConns, Bool.true_eq_false, false_or]
    omega

/-- With two interactive shards the second is latency sensitive and on the bulk preset. -/
theorem second_interactive_shard_bulk :
    let pool := ConnPool.new 1 true 2 1
    2 ∈ pool.classSlots .interactive ∧ 2 ∉ pool.classSlots .bulk ∧
      pool.slotIsLatencySensitive 2 = true ∧ pool.slotUsesBulkPreset 2 = true := by
  decide

/-- The slot for a new TCP flow. -/
def selectSlot (pinned : Bool) (rr : Nat) (live : List Bool) : Nat :=
  let n := live.length
  if n = 1 then 0
  else
    let bulk := n - 1
    let preferred := if pinned then 0 else 1 + rr % bulk
    if live.getD preferred false then preferred
    else
      -- the scan continues from the cursor; the sum is that of machine words
      match (range bulk).find? fun k =>
          live.getD (1 + (rr + k) % usizeSize % bulk) false with
      | some k => 1 + (rr + k) % usizeSize % bulk
      | none => if !pinned && live.getD 0 false then 0 else preferred

/-- What the choice of a slot sees of it. -/
structure ConnSlot where
  live : Bool
  lastRxMs : Nat
  /-- The slot publishes a connection that is closed. -/
  holdsDeadHandle : Bool

def ConnSlot.isDataStale (s : ConnSlot) (nowMs thresholdMs : Nat) : Bool :=
  decide (s.lastRxMs ≠ 0) && decide (thresholdMs ≤ nowMs - s.lastRxMs)

def ConnSlot.fresh (nowMs thresholdMs : Nat) (s : ConnSlot) : Bool :=
  s.live && !s.isDataStale nowMs thresholdMs

def TargetAddr.targetPort : TargetAddr → UInt16
  | .ip s => s.port
  | .domain _ p => p

/-- The slot of a new TCP flow. -/
def pickTcpIndexInner (interactivePorts : List UInt16) (dataStaleMs : Nat) (slots : List ConnSlot)
    (rr : Nat) (t : TargetAddr) (nowMs : Nat) : Nat :=
  let live := slots.map ConnSlot.live
  let fresh := slots.map (ConnSlot.fresh nowMs dataStaleMs)
  let pinned := interactivePorts.contains t.targetPort
  let preferred := selectSlot pinned rr live
  if live.getD preferred false && (slots[preferred]?).any ConnSlot.holdsDeadHandle then
    selectSlot pinned rr (live.set preferred false)
  else if live.getD preferred false && !fresh.getD preferred false && fresh.any id then
    selectSlot pinned rr fresh
  else preferred

section

variable {pinned : Bool} {rr : Nat} {live : List Bool}

/-- A window of the cursor meets every residue. -/
lemma exists_add_mod {bulk i : Nat} (rr : Nat) (hi : i < bulk) :
    ∃ k < bulk, (rr + k) % bulk = i := by
  have hr := Nat.mod_lt rr (Nat.zero_lt_of_lt hi)
  refine ⟨(i + bulk - rr % bulk) % bulk, Nat.mod_lt _ (Nat.zero_lt_of_lt hi), ?_⟩
  rw [Nat.add_mod_mod, ← Nat.mod_add_mod,
    show rr % bulk + (i + bulk - rr % bulk) = i + bulk by omega, Nat.add_mod_right,
    Nat.mod_eq_of_lt hi]

lemma lt_of_live {i : Nat} (h : live.getD i false = true) : i < live.length := by
  by_contra hge
  rw [getD_eq_getElem?_getD, getElem?_eq_none (Nat.le_of_not_lt hge)] at h
  cases h

lemma getD_map (slots : List ConnSlot) (f : ConnSlot → Bool) (i : Nat) :
    (slots.map f).getD i false = (slots[i]?).any f := by
  cases h : slots[i]? <;> simp [h]

lemma selectSlot_cases (pinned : Bool) (hrr : rr + live.length ≤ usizeSize + 1)
    (h1 : live.length ≠ 1) {preferred : Nat}
    (hp : preferred = if pinned then 0 else 1 + rr % (live.length - 1)) :
    live.getD preferred false = true ∧ selectSlot pinned rr live = preferred ∨
    live.getD preferred false = false ∧ 0 < selectSlot pinned rr live ∧
      live.getD (selectSlot pinned rr live) false = true ∨
    (∀ i, 0 < i → live.getD i false = false) ∧
      selectSlot pinned rr live = if !pinned && live.getD 0 false then 0 else preferred := by
  simp only [selectSlot, if_neg h1, ← hp]
  cases hl : live.getD preferred false with
  | true => exact .inl ⟨rfl, by simp⟩
  | false =>
    refine .inr ?_
    simp only [Bool.false_eq_true, if_false, true_and]
    cases hf : (range (live.length - 1)).find? fun k =>
        live.getD (1 + (rr + k) % usizeSize % (live.length - 1)) false with
    | some k =>
      have hk := find?_some hf
      exact .inl ⟨Nat.lt_add_right _ Nat.one_pos, hk⟩
    | none =>
      refine .inr ⟨fun i hi => ?_, rfl⟩
      by_cases hlt : i < live.length
      · -- the scan came by every bulk slot, as its sums did not wrap
        obtain ⟨k, hk, hmod⟩ := exists_add_mod rr (show i - 1 < live.length - 1 by omega)
        have hnone := find?_eq_none.mp hf k (mem_range.mpr hk)
        rw [Nat.mod_eq_of_lt (show rr + k < usizeSize by omega), hmod,
          show 1 + (i - 1) = i by omega] at hnone
        simpa using hnone
      · exact Bool.eq_false_iff.mpr fun h => hlt (lt_of_live h)

lemma live_selectSlot (hrr : rr + live.length ≤ usizeSize + 1) (h : true ∈ live) :
    live.getD (selectSlot pinned rr live) false = true := by
  obtain ⟨i, hi, hlive⟩ := mem_iff_getElem.mp h
  have hget : live.getD i false = true := by simp [hi, hlive]
  by_cases h1 : live.length = 1
  · simpa [selectSlot, h1, show i = 0 by omega] using hget
  rcases selectSlot_cases pinned hrr h1 rfl with ⟨hl, hs⟩ | ⟨-, -, hl⟩ | ⟨hb, hs⟩
  · rwa [hs]
  · exact hl
  · have h0 : i = 0 := by
      by_contra hne
      exact Bool.false_ne_true ((hb i (Nat.pos_of_ne_zero hne)).symm.trans hget)
    subst h0
    rw [hs, hget]
    cases pinned <;> simpa using hget

/-- A bulk flow takes slot 0 only if there is no other. -/
lemma bulk_of_selectSlot (hrr : rr + live.length ≤ usizeSize + 1)
    (h : selectSlot false rr live = 0) {i : Nat} (hi : 0 < i) : live.getD i false = false := by
  by_cases h1 : live.length = 1
  · exact Bool.eq_false_iff.mpr fun h => by have := lt_of_live h; omega
  rcases selectSlot_cases false hrr h1 rfl with ⟨-, hs⟩ | ⟨-, hpos, -⟩ | ⟨hb, -⟩
  · simp only [h, Bool.false_eq_true, if_false] at hs
    omega
  · omega
  · exact hb i hi

lemma selectSlot_at {i : Nat} (hi : 0 < i) (hl : live.getD i false = true) (hrr : rr < usizeSize)
    (hmod : rr % (live.length - 1) = i - 1) (hp : pinned = true → live.getD 0 false = false) :
    selectSlot pinned rr live = i := by
  have hlt := lt_of_live hl
  have hsum : 1 + (i - 1) = i := by omega
  cases pinned with
  | false => simp only [selectSlot, if_neg (show live.length ≠ 1 by omega), Bool.false_eq_true,
      if_false, hmod, hsum, hl, if_true]
  | true =>
    obtain ⟨m, hm⟩ : ∃ m, live.length - 1 = m + 1 := ⟨live.length - 2, by omega⟩
    rw [hm] at hmod
    simp only [selectSlot, if_neg (show live.length ≠ 1 by omega), if_true, hp rfl,
      Bool.false_eq_true, if_false, hm, range_succ_eq_map, find?_cons, Nat.add_zero,
      Nat.mod_eq_of_lt hrr, hmod, hsum, hl]

end

/-- A flow gets a live slot within its class if there is one, the flows of a window of the cursor
are spread over the live bulk slots, and a slot without progress is passed over. The cursor is not
about to wrap. -/
theorem slot_choice (live : List Bool) (slots : List ConnSlot) (rr : Nat)
    (hlive : rr + live.length ≤ usizeSize + 1) (hslots : rr + slots.length ≤ usizeSize + 1) :
    (∀ pinned, true ∈ live → live.getD (selectSlot pinned rr live) false = true) ∧
    (live.getD 0 false = true → selectSlot true rr live = 0) ∧
    (selectSlot false rr live = 0 → ∀ i, 0 < i → live.getD i false = false) ∧
    (∀ i, 0 < i → live.getD i false = true →
      (∃ k < live.length - 1, selectSlot false (rr + k) live = i) ∧
      (live.getD 0 false = false → ∃ k < live.length - 1, selectSlot true (rr + k) live = i)) ∧
    ∀ ports staleMs t nowMs,
      (slots[selectSlot (ports.contains t.targetPort) rr (slots.map ConnSlot.live)]?).any
        (fun s => s.live && !s.holdsDeadHandle) = true →
      slots.any (ConnSlot.fresh nowMs staleMs) = true →
      (slots[pickTcpIndexInner ports staleMs slots rr t nowMs]?).any
        (ConnSlot.fresh nowMs staleMs) = true := by
  refine ⟨fun pinned h => live_selectSlot hlive h, fun h => ?_,
    fun h i hi => bulk_of_selectSlot hlive h hi, fun i hi hl => ?_, ?_⟩
  · simp only [selectSlot, if_true, h, ite_self]
  · have hlt := lt_of_live hl
    obtain ⟨k, hk, hmod⟩ := exists_add_mod rr (show i - 1 < live.length - 1 by omega)
    exact ⟨⟨k, hk, selectSlot_at hi hl (by omega) hmod nofun⟩,
      fun h0 => ⟨k, hk, selectSlot_at hi hl (by omega) hmod fun _ => h0⟩⟩
  -- a slot without progress is passed over for a fresh one
  intro ports staleMs t nowMs hpref hfresh
  unfold pickTcpIndexInner
  dsimp only
  generalize ports.contains t.targetPort = pinned at hpref ⊢
  generalize selectSlot pinned rr (slots.map ConnSlot.live) = preferred at hpref ⊢
  cases hs : slots[preferred]? with
  | none => simp [hs] at hpref
  | some s =>
    simp only [hs, Option.any_some, Bool.and_eq_true, Bool.not_eq_true'] at hpref
    simp only [getD_map, hs, Option.any_some, hpref, Bool.and_false, Bool.false_eq_true, if_false,
      Bool.true_and]
    cases hf : s.fresh nowMs staleMs with
    | true => simpa [hs] using hf
    | false =>
      have hany : (slots.map (ConnSlot.fresh nowMs staleMs)).any id = true := by
        simpa using hfresh
      rw [hany, Bool.not_false, Bool.and_true, if_pos rfl, ← getD_map]
      exact live_selectSlot (by simpa using hslots) (by simpa using hfresh)

/-- Next to the end of the cursor the scan passes over a live slot. -/
theorem wrapped_cursor_misses :
    [false, false, false, true].getD
      (selectSlot false (usizeSize - 1) [false, false, false, true]) false = false := by
  decide

/-- Two live bulk slots among four, one of them without progress. -/
theorem slot_choice_stale :
    let slots : List ConnSlot :=
      [⟨true, 9, false⟩, ⟨true, 1, false⟩, ⟨false, 0, false⟩, ⟨true, 8, false⟩]
    selectSlot false 0 (slots.map ConnSlot.live) = 1 ∧
      (slots[pickTcpIndexInner [22] 5 slots 0 (.domain "a" 80) 9]?).any (ConnSlot.fresh 9 5) = true :=
  ⟨by decide, (slot_choice [] _ 0 (by decide) (by decide)).2.2.2.2 [22] 5 (.domain "a" 80) 9
    (by decide) (by decide)⟩

end MyQuic2
