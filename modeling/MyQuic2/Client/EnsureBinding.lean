import MyQuic2.Client.Uplink
import MyQuic2.Server.ReaderInvariant

/-!
# The binding of a target

Associations and the connection's registry share bindings by reference. An association looks a
target up in its memo, in its table and among the flows that the server has opened, and opens
a flow otherwise. The dispatcher takes flows out of the registry and marks them closed.
-/

namespace MyQuic2

open List Function ReplyReader FlowBinding

/-- The flows of a connection and of its associations, by session. -/
structure UplinkTables where
  wire : Wire
  cap : Nat
  ids : FlowIds
  /-- Every binding that was made, by the order in which they were made. -/
  heap : Nat → FlowBinding
  allocated : Nat
  registry : Map UInt32 Nat
  flows : UInt32 → List (Option Nat)
  last : UInt32 → Option (TargetAddr × Nat)

inductive UplinkTablesEvent where
  /-- The server announces a flow of its own that the registry does not have. -/
  | install (id sess : UInt32) (src : SocketAddr)
  | drop (id : UInt32)
  | closeSession (sess : UInt32)
  /-- A frame from the server opens a flow, or asks for its context again. -/
  | opened (id : UInt32)
  | rearm (id : UInt32)
  /-- An association learns that the server has closed its session. -/
  | sync (sess : UInt32)
  | ensure (sess : UInt32) (addr : TargetAddr) (rejected : Bool)

namespace UplinkTables

def new (wire : Wire) (cap : Nat) : UplinkTables where
  wire := wire
  cap := cap
  ids := .new false
  heap := fun _ => .new 0 0 (.domain "" 0)
  allocated := 0
  registry := ∅
  flows := fun _ => List.replicate maxFlowsPerSession none
  last := fun _ => none

/-- The table of an association, with the bindings as they are. -/
def table (t : UplinkTables) (sess : UInt32) : ReplyReader where
  heap := t.heap
  entries := t.flows sess
  snapshot := 0
  memo := .default

/-- Take ids out of the registry and mark bindings closed. -/
def purge (t : UplinkTables) (ids : List UInt32) (refs : List Nat) : UplinkTables :=
  { t with
    heap := fun b => if b ∈ refs then (t.heap b).markClosed else t.heap b
    registry := t.registry.retain fun id _ => id ∉ ids }

section

variable (t : UplinkTables) (sess : UInt32) (addr : TargetAddr)

def modify (id : UInt32) (f : FlowBinding → FlowBinding) : UplinkTables :=
  match t.registry.lookup id with
  | none => t
  | some b => { t with heap := update t.heap b (f (t.heap b)) }

/-- Make a binding and register it. -/
def add (b : FlowBinding) : UplinkTables :=
  { t with
    heap := update t.heap t.allocated b
    allocated := t.allocated + 1
    registry := t.registry.insert b.wireId t.allocated }

def installServerFlow (id sess : UInt32) (src : SocketAddr) : UplinkTables :=
  if !Wire.wireIdServerOwned id || (t.registry.lookup id).isSome || t.cap ≤ t.registry.size then t
  else t.add ((FlowBinding.new id sess (.ip src)).setReplySrc src).markOpen

def find (t : UplinkTables) (sess : UInt32) (addr : TargetAddr) : Option Nat :=
  (t.table sess).refs.find? fun b => (t.heap b).target = addr

def findServerFlow : Option Nat :=
  (t.registry.entries.map Sigma.snd).find? fun b =>
    Wire.wireIdServerOwned (t.heap b).wireId && (t.heap b).session = sess &&
      (t.heap b).target = addr

/-- Note the binding that a target has. -/
def remember (b : Nat) : UplinkTables :=
  { t with last := update t.last sess (some (addr, b)) }

/-- Put a binding into the table of an association. -/
def insertFlow (t : UplinkTables) (sess : UInt32) (addr : TargetAddr) (b : Nat) :
    Option UplinkTables :=
  ((t.table sess).insertFlow b).map fun entries =>
    remember { t with flows := update t.flows sess entries } sess addr b

def insertNewFor : Option Nat × UplinkTables :=
  if t.cap ≤ t.registry.size ∨ t.wire = .rev3 ∧ Wire.maxR3LocalId ≤ t.ids.next then (none, t)
  else
    match t.ids.allocWireId t.wire with
    | (none, ids) => (none, { t with ids := ids })
    | (some id, ids) =>
      match t.registry.lookup id with
      | some b =>
        (if (t.heap b).session = sess ∧ (t.heap b).target = addr then some b else none,
          { t with ids := ids })
      | none => (some t.allocated, add { t with ids := ids } (.new id sess addr))

def newFlow : Option Nat × UplinkTables :=
  match t.insertNewFor sess addr with
  | (none, t) => (none, t)
  | (some b, t) =>
    match t.insertFlow sess addr b with
    | none => (none, t.purge [(t.heap b).wireId] [])
    | some t => (some b, t)

section

variable (rejected : Bool) (sess : UInt32) (addr : TargetAddr)

def openFlow : Option Nat × UplinkTables :=
  if (t.table sess).isFull || rejected then (none, t)
  else
    match t.findServerFlow sess addr with
    | none => t.newFlow sess addr
    | some server =>
      if (t.heap server).isOpen then
        match t.insertFlow sess addr server with
        | none => (none, t)
        | some t => (some server, t)
      else if (t.heap server).state = .closed then
        (t.purge [(t.heap server).wireId] []).newFlow sess addr
      else t.newFlow sess addr

/-- The lookup without the memo. -/
def lookupBinding : Option Nat × UplinkTables :=
  let t := { t with last := update t.last sess none }
  match t.find sess addr with
  | none => t.openFlow rejected sess addr
  | some b =>
    if (t.heap b).state ≠ .closed then (some b, t.remember sess addr b)
    else
      let id := (t.heap b).wireId
      let flows := (t.table sess).without id (t.flows sess)
      ({ t with flows := update t.flows sess flows }.purge [id] []).openFlow rejected
        sess addr

/-- Find the binding of a target, opening a flow when needed. -/
def ensureBinding : Option Nat × UplinkTables :=
  match (t.last sess).filter fun m =>
      m.1 = addr && (t.heap m.2).session = sess && (t.heap m.2).state ≠ .closed with
  | some (_, b) => (some b, t)
  | none => t.lookupBinding rejected sess addr

end

def next : UplinkTablesEvent → UplinkTables
  | .install id sess src => t.installServerFlow id sess src
  | .drop id => t.purge [id] (t.registry.lookup id).toList
  | .closeSession sess =>
    let refs := (t.registry.entries.map Sigma.snd).filter fun b => (t.heap b).session = sess
    t.purge (refs.map fun b => (t.heap b).wireId) refs
  | .opened id => t.modify id markOpen
  | .rearm id => t.modify id rearmContext
  | .sync sess =>
    let refs := (t.table sess).refs
    { t.purge (refs.map fun b => (t.heap b).wireId) refs with
      flows := update t.flows sess (List.replicate maxFlowsPerSession none)
      last := update t.last sess none }
  | .ensure sess addr rejected => (t.ensureBinding rejected sess addr).2

/-- The server announces an id for one session and source only. -/
def Steady : UplinkTablesEvent → Prop
  | .install id sess src => ∀ b < t.allocated, (t.heap b).wireId = id →
    (t.heap b).session = sess ∧ (t.heap b).target = .ip src
  | _ => True

end

instance (t : UplinkTables) (ev : UplinkTablesEvent) : Decidable (t.Steady ev) := by
  cases ev <;> unfold Steady <;> infer_instance

/-- An id names one session and target. A table lists bindings of its session, one for a target,
each registered until it is closed, and the memo is one of them. -/
structure Exact (t : UplinkTables) : Prop where
  bound : ∀ id b, t.registry.lookup id = some b → b < t.allocated ∧ (t.heap b).wireId = id
  named : ∀ b < t.allocated, ∀ c < t.allocated, (t.heap b).wireId = (t.heap c).wireId →
    (t.heap b).session = (t.heap c).session ∧ (t.heap b).target = (t.heap c).target
  live : ∀ sess, ∀ b ∈ (t.table sess).refs, (t.heap b).state ≠ .closed →
    t.registry.lookup (t.heap b).wireId = some b
  listed : ∀ sess, ∀ b ∈ (t.table sess).refs, b < t.allocated ∧ (t.heap b).session = sess
  single : ∀ sess, ((t.table sess).refs.map fun b => (t.heap b).target).Nodup
  memo : ∀ sess addr b, t.last sess = some (addr, b) →
    b < t.allocated ∧ (t.heap b).session = sess ∧ (t.heap b).target = addr ∧
      ((t.heap b).state ≠ .closed → b ∈ (t.table sess).refs)
  client : t.ids.serverOwned = false
  issued : ∀ b < t.allocated, Wire.wireIdServerOwned (t.heap b).wireId = false →
    (t.heap b).wireId.toNat ≤ 2 * t.ids.next.toNat

variable {t : UplinkTables} {sess : UInt32} {addr : TargetAddr}

/-- Bindings that change no more than their state, without leaving the closed one. -/
lemma Exact.restate (h : Exact t) {heap : Nat → FlowBinding} {registry : Map UInt32 Nat}
    (hsame : ∀ b, (heap b).wireId = (t.heap b).wireId ∧ (heap b).session = (t.heap b).session ∧
      (heap b).target = (t.heap b).target ∧ ((t.heap b).state = .closed → (heap b).state = .closed))
    (hsub : ∀ id b, registry.lookup id = some b → t.registry.lookup id = some b)
    (hlive : ∀ s, ∀ b ∈ (t.table s).refs, (heap b).state ≠ .closed →
      registry.lookup (t.heap b).wireId = t.registry.lookup (t.heap b).wireId) :
    Exact { t with heap := heap, registry := registry } := by
  have hopen : ∀ b, (heap b).state ≠ .closed → (t.heap b).state ≠ .closed :=
    fun b hb hc => hb ((hsame b).2.2.2 hc)
  constructor
  · intro id b hb
    simpa [hsame] using h.bound id b (hsub id b hb)
  · intro b hb c hc heq
    simp only [hsame] at heq ⊢
    exact h.named b hb c hc heq
  · intro s b hb hstate
    rw [(hsame b).1, hlive s b hb hstate]
    exact h.live s b hb (hopen b hstate)
  · intro s b hb
    simpa [hsame] using h.listed s b hb
  · intro s
    change ((t.table s).refs.map fun b => (heap b).target).Nodup
    simpa [hsame] using h.single s
  · intro s a b hb
    obtain ⟨hlt, hsess, haddr, hmem⟩ := h.memo s a b hb
    exact ⟨hlt, (hsame b).2.1.trans hsess, (hsame b).2.2.1.trans haddr, fun hs => hmem (hopen b hs)⟩
  · exact h.client
  · intro b hb howner
    simp only [hsame] at howner ⊢
    exact h.issued b hb howner

lemma Exact.purge (h : Exact t) {ids : List UInt32} {refs : List Nat}
    (hall : ∀ s, ∀ b ∈ (t.table s).refs, (t.heap b).state ≠ .closed →
      (t.heap b).wireId ∈ ids → b ∈ refs) : Exact (t.purge ids refs) := by
  refine h.restate (fun b => ?_) (fun id b hb => ?_) fun s b hb hstate => ?_
  · split <;> simp [markClosed]
  · rw [Map.lookup_retain] at hb
    exact (Option.filter_eq_some_iff.mp hb).1
  · split at hstate
    · simp [markClosed] at hstate
    rename_i hnot
    rw [Map.lookup_retain]
    have hkeep : (t.heap b).wireId ∉ ids := fun hmem => hnot (hall s b hb hstate hmem)
    cases t.registry.lookup (t.heap b).wireId <;> simp [hkeep]

lemma Exact.modify (h : Exact t) (id : UInt32) {f : FlowBinding → FlowBinding}
    (hf : ∀ b, (f b).wireId = b.wireId ∧ (f b).session = b.session ∧ (f b).target = b.target ∧
      (b.state = .closed → (f b).state = .closed)) : Exact (t.modify id f) := by
  unfold UplinkTables.modify
  split
  · exact h
  rename_i b hb
  refine h.restate (fun c => ?_) (fun _ _ hc => hc) fun _ _ _ _ => rfl
  by_cases hc : c = b
  · subst hc
    simpa using hf _
  · simp [hc]

variable {ids : FlowIds} {memo : Option (TargetAddr × Nat)} {b : Nat}

open UplinkTables

lemma Exact.added (h : Exact t) {b : FlowBinding} (hclient : ids.serverOwned = false)
    (hids : t.ids.next ≤ ids.next) (hfree : t.registry.lookup b.wireId = none)
    (hnamed : ∀ c < t.allocated, (t.heap c).wireId = b.wireId →
      (t.heap c).session = b.session ∧ (t.heap c).target = b.target)
    (hissued : Wire.wireIdServerOwned b.wireId = false → b.wireId.toNat ≤ 2 * ids.next.toNat) :
    Exact (add { t with ids := ids } b) := by
  have hself : (add { t with ids := ids } b).heap t.allocated = b := update_self ..
  have hold : ∀ c < t.allocated, (add { t with ids := ids } b).heap c = t.heap c :=
    fun c hc => update_of_ne hc.ne ..
  have hcases : ∀ {c}, c < t.allocated + 1 → c = t.allocated ∨ c < t.allocated := by omega
  constructor
  · intro id c hc
    rcases Map.lookup_insert_cases hc with ⟨rfl, rfl⟩ | ⟨-, hc⟩
    · exact ⟨Nat.lt_succ_self _, by rw [hself]⟩
    · obtain ⟨hlt, hwire⟩ := h.bound id c hc
      exact ⟨hlt.trans (Nat.lt_succ_self _), by rw [hold c hlt, hwire]⟩
  · intro c hc d hd heq
    rcases hcases hc with rfl | hc <;> rcases hcases hd with rfl | hd
    · exact ⟨rfl, rfl⟩
    · rw [hself, hold d hd] at heq ⊢
      exact (hnamed d hd heq.symm).imp Eq.symm Eq.symm
    · rw [hself, hold c hc] at heq ⊢
      exact hnamed c hc heq
    · rw [hold c hc, hold d hd] at heq ⊢
      exact h.named c hc d hd heq
  · intro s c hc hstate
    rw [hold c (h.listed s c hc).1] at hstate ⊢
    have hlive := h.live s c hc hstate
    refine (AList.lookup_insert_ne ?_).trans hlive
    intro heq
    rw [heq, hfree] at hlive
    cases hlive
  · intro s c hc
    obtain ⟨hlt, hsess⟩ := h.listed s c hc
    exact ⟨hlt.trans (Nat.lt_succ_self _), by rw [hold c hlt, hsess]⟩
  · intro s
    refine (map_congr_left fun c hc => ?_) ▸ h.single s
    rw [hold c (h.listed s c hc).1]
  · intro s a c hc
    obtain ⟨hlt, hmemo⟩ := h.memo s a c hc
    rw [hold c hlt]
    exact ⟨hlt.trans (Nat.lt_succ_self _), hmemo⟩
  · exact hclient
  · intro c hc howner
    rcases hcases hc with rfl | hc
    · rw [hself] at howner ⊢
      exact hissued howner
    rw [hold c hc] at howner ⊢
    have hle := UInt32.le_iff_toNat_le.mp hids
    exact (h.issued c hc howner).trans (Nat.mul_le_mul_left 2 hle)

/-- One association gets another table and memo. -/
lemma Exact.relist (h : Exact t) {entries : List (Option Nat)}
    (hlisted : ∀ b ∈ entries.filterMap id, b < t.allocated ∧ (t.heap b).session = sess)
    (hlive : ∀ b ∈ entries.filterMap id, (t.heap b).state ≠ .closed →
      t.registry.lookup (t.heap b).wireId = some b)
    (hsingle : ((entries.filterMap id).map fun b => (t.heap b).target).Nodup)
    (hmemo : ∀ addr b, memo = some (addr, b) → b < t.allocated ∧ (t.heap b).session = sess ∧
      (t.heap b).target = addr ∧ ((t.heap b).state ≠ .closed → b ∈ entries.filterMap id)) :
    Exact { t with
      flows := update t.flows sess entries
      last := update t.last sess memo } := by
  refine ⟨h.bound, h.named, fun s => ?_, fun s => ?_, fun s => ?_, fun s => ?_, h.client,
    h.issued⟩ <;> by_cases hs : s = sess
  · subst hs
    simpa only [table, refs, update_self] using hlive
  · simpa only [table, refs, update_of_ne hs] using h.live s
  · subst hs
    simpa only [table, refs, update_self] using hlisted
  · simpa only [table, refs, update_of_ne hs] using h.listed s
  · subst hs
    simpa only [table, refs, update_self] using hsingle
  · simpa only [table, refs, update_of_ne hs] using h.single s
  · subst hs
    simpa only [table, refs, update_self] using hmemo
  · simpa only [table, refs, update_of_ne hs] using h.memo s

/-- What a lookup may answer: a binding of the target that the association and the registry
have, or none. -/
structure Answer (sess : UInt32) (addr : TargetAddr) (out : Option Nat × UplinkTables) : Prop where
  exact : Exact out.2
  found : ∀ b ∈ out.1, (out.2.heap b).state ≠ .closed ∧ (out.2.heap b).session = sess ∧
    (out.2.heap b).target = addr ∧ out.2.registry.lookup (out.2.heap b).wireId = some b

lemma Exact.answer (h : Exact t) (hlive : t.registry.lookup (t.heap b).wireId = some b)
    (hstate : (t.heap b).state ≠ .closed) (hsess : (t.heap b).session = sess)
    (haddr : (t.heap b).target = addr) : Answer sess addr (some b, t) := by
  refine ⟨h, ?_⟩
  rintro c ⟨⟩
  exact ⟨hstate, hsess, haddr, hlive⟩

lemma Exact.refuse (h : Exact t) : Answer sess addr (none, t) := ⟨h, nofun⟩

lemma Exact.insertFlow (h : Exact t) {t' : UplinkTables}
    (hlive : t.registry.lookup (t.heap b).wireId = some b) (hstate : (t.heap b).state ≠ .closed)
    (hsess : (t.heap b).session = sess) (haddr : (t.heap b).target = addr)
    (hnone : ∀ c ∈ (t.table sess).refs, (t.heap c).target ≠ addr)
    (hins : t.insertFlow sess addr b = some t') : Answer sess addr (some b, t') := by
  obtain ⟨entries, hentries, rfl⟩ := Option.map_eq_some_iff.mp hins
  refine Exact.answer ?_ hlive hstate hsess haddr
  obtain ⟨hb, -⟩ := h.bound _ b hlive
  cases inserted_of_insertFlow hentries with
  | known c hmem hid _ =>
    obtain ⟨-, htarget⟩ := h.named c (h.listed sess c hmem).1 b hb hid
    exact absurd (htarget.trans haddr) (hnone c hmem)
  | placed _ _ before behind removed hold hrefs _ =>
    have hmem : ∀ c ∈ before ++ behind, c ∈ (t.table sess).refs := by
      grind
    have hnd := h.single sess
    refine h.relist ?_ ?_ ?_ ?_
    · intro c hc
      by_cases hcb : c = b
      · exact hcb ▸ ⟨hb, hsess⟩
      · exact h.listed sess c (hmem c (by grind))
    · intro c hc
      by_cases hcb : c = b
      · exact hcb ▸ fun _ => hlive
      · exact h.live sess c (hmem c (by grind))
    · rw [hold] at hnd
      rw [hrefs]
      have hkept : ((before ++ behind).map fun b => (t.heap b).target).Nodup := by
        refine hnd.sublist (List.Sublist.map _ ?_)
        simp
      rw [(perm_middle.map _).nodup_iff, map_cons, nodup_cons]
      refine ⟨fun hmap => ?_, hkept⟩
      obtain ⟨c, hc, htarget⟩ := mem_map.mp hmap
      exact hnone c (hmem c hc) (htarget.trans haddr)
    · rintro a c ⟨⟩
      exact ⟨hb, hsess, haddr, fun _ => hrefs ▸ mem_append_right _ mem_cons_self⟩

lemma Exact.withIds (h : Exact t) (hclient : ids.serverOwned = false)
    (hids : t.ids.next ≤ ids.next) : Exact { t with ids := ids } := by
  have hle := UInt32.le_iff_toNat_le.mp hids
  refine ⟨h.bound, h.named, h.live, h.listed, h.single, h.memo, hclient, fun b hb howner => ?_⟩
  exact (h.issued b hb howner).trans (Nat.mul_le_mul_left 2 hle)

/-- An id from the counter is new. -/
lemma Exact.fresh (h : Exact t) {id : UInt32}
    (halloc : t.ids.allocWireId t.wire = (some id, ids)) :
    ids.serverOwned = false ∧ t.ids.next ≤ ids.next ∧
      (Wire.wireIdServerOwned id = false → id.toNat ≤ 2 * ids.next.toNat) ∧
      ∀ c < t.allocated, (t.heap c).wireId ≠ id := by
  have hgrant : t.ids.Grant t.wire (t.ids.allocWireId t.wire) := FlowIds.grant_allocWireId
  rw [halloc] at hgrant
  obtain ⟨hlt, hval, -⟩ := hgrant.fresh id rfl
  dsimp only at hlt hval
  simp only [FlowIds.ownerBit, h.client, Bool.false_eq_true, if_false, add_zero] at hval
  refine ⟨hgrant.owner.trans h.client, hgrant.mono, fun _ => hval.le, ?_⟩
  rintro c hc rfl
  have howner : Wire.wireIdServerOwned (t.heap c).wireId = false := by
    rw [← Bool.not_eq_true, Wire.wireIdServerOwned_iff]
    omega
  have hle := h.issued c hc howner
  have := UInt32.lt_iff_toNat_lt.mp hlt
  omega

lemma Exact.newFlow (h : Exact t) (hfull : (t.table sess).isFull = false)
    (hnone : ∀ c ∈ (t.table sess).refs, (t.heap c).target ≠ addr) :
    Answer sess addr (t.newFlow sess addr) := by
  unfold UplinkTables.newFlow insertNewFor
  split_ifs
  · exact h.refuse
  rcases halloc : t.ids.allocWireId t.wire with ⟨_ | id, ids⟩
  · have hgrant : t.ids.Grant t.wire (t.ids.allocWireId t.wire) := FlowIds.grant_allocWireId
    rw [halloc] at hgrant
    exact (h.withIds (hgrant.owner.trans h.client) hgrant.mono).refuse
  obtain ⟨hclient, hids, hissued, hfresh⟩ := h.fresh halloc
  have hid : t.registry.lookup id = none := by
    by_contra hsome
    obtain ⟨b, hb⟩ := Option.ne_none_iff_exists'.mp hsome
    obtain ⟨hlt, hwire⟩ := h.bound id b hb
    exact hfresh b hlt hwire
  have hadd : Exact (add { t with ids := ids } (.new id sess addr)) :=
    h.added hclient hids hid (fun c hc heq => absurd heq (hfresh c hc)) hissued
  have hold : ∀ c ∈ (t.table sess).refs,
      (add { t with ids := ids } (.new id sess addr)).heap c = t.heap c :=
    fun c hc => update_of_ne (h.listed sess c hc).1.ne ..
  have hself : (add { t with ids := ids } (.new id sess addr)).heap t.allocated =
    .new id sess addr := update_self ..
  have hroom : ((add { t with ids := ids } (.new id sess addr)).table sess).isFull = false := by
    simp only [isFull, Bool.not_eq_false', any_eq_true] at hfull ⊢
    obtain ⟨slot, hslot, hfree⟩ := hfull
    refine ⟨slot, hslot, ?_⟩
    cases slot with
    | none => rfl
    | some c =>
      have hc : c ∈ (t.table sess).refs := mem_filterMap.mpr ⟨some c, hslot, rfl⟩
      refine decide_eq_true ?_
      change ((add _ _).heap c).state = .closed
      rw [hold c hc]
      exact of_decide_eq_true hfree
  simp only [hid]
  obtain ⟨entries, hentries⟩ :=
    insertFlow_isSome (b := t.allocated) fun hf =>
      absurd (hroom.symm.trans hf) Bool.false_ne_true
  split
  · rename_i hins
    simp [UplinkTables.insertFlow, hentries] at hins
  rename_i t' hins
  have hlive : (add { t with ids := ids } (.new id sess addr)).registry.lookup id =
    some t.allocated := AList.lookup_insert _
  refine hadd.insertFlow ?_ ?_ ?_ ?_ (fun c hc => hold c hc ▸ hnone c hc) hins <;> rw [hself]
  · exact hlive
  all_goals simp [FlowBinding.new]

lemma purge_nil (ids : List UInt32) :
    t.purge ids [] = { t with registry := t.registry.retain fun id _ => id ∉ ids } := by
  simp [purge]

lemma Exact.openFlow (h : Exact t) (rejected : Bool)
    (hnone : ∀ c ∈ (t.table sess).refs, (t.heap c).target ≠ addr) :
    Answer sess addr (t.openFlow rejected sess addr) := by
  unfold UplinkTables.openFlow
  split
  · exact h.refuse
  have hfull : (t.table sess).isFull = false := by simp_all
  split
  · exact h.newFlow hfull hnone
  rename_i server hserver
  have hmem := mem_of_find?_eq_some hserver
  obtain ⟨⟨id, b⟩, hentry, rfl⟩ := mem_map.mp hmem
  have hlookup := AList.mem_lookup_iff.mpr hentry
  obtain ⟨-, rfl⟩ := h.bound id b hlookup
  have hfound := find?_some hserver
  simp only [Bool.and_eq_true, decide_eq_true_eq] at hfound
  split
  · rename_i hopen
    have hstate : (t.heap b).state ≠ .closed := by
      rw [of_decide_eq_true hopen]
      decide
    split
    · exact h.refuse
    · rename_i t' hins
      exact h.insertFlow hlookup hstate hfound.1.2 hfound.2 hnone hins
  split
  · rename_i hclosed
    have hforget : Exact (t.purge [(t.heap b).wireId] []) := by
      refine h.purge fun s c hc hstate hid => ?_
      have hlive := h.live s c hc hstate
      rw [mem_singleton.mp hid] at hlive
      obtain rfl := Option.some.inj (hlive.symm.trans hlookup)
      exact absurd hclosed hstate
    rw [purge_nil] at hforget ⊢
    exact hforget.newFlow hfull hnone
  · exact h.newFlow hfull hnone

/-- The memo of an association is set. -/
lemma Exact.relast (h : Exact t)
    (hmemo : ∀ addr b, memo = some (addr, b) → b < t.allocated ∧ (t.heap b).session = sess ∧
      (t.heap b).target = addr ∧ ((t.heap b).state ≠ .closed → b ∈ (t.table sess).refs)) :
    Exact { t with last := update t.last sess memo } := by
  have hset := h.relist (h.listed sess) (h.live sess) (h.single sess) hmemo
  simpa [table] using hset

lemma Exact.eq_of_target (h : Exact t) {c : Nat} (hb : b ∈ (t.table sess).refs)
    (hc : c ∈ (t.table sess).refs) (heq : (t.heap b).target = (t.heap c).target) : b = c :=
  inj_on_of_nodup_map (h.single sess) hb hc heq

/-- An id has one binding in the tables. -/
lemma Exact.eq_of_id (h : Exact t) {s : UInt32} {c : Nat} (hb : b ∈ (t.table s).refs)
    (hc : c ∈ (t.table sess).refs) (heq : (t.heap b).wireId = (t.heap c).wireId) : b = c := by
  obtain ⟨hlt, rfl⟩ := h.listed s b hb
  obtain ⟨hlt', rfl⟩ := h.listed sess c hc
  obtain ⟨hsess, htarget⟩ := h.named b hlt c hlt' heq
  exact h.eq_of_target hb (hsess ▸ hc) htarget

lemma find_spec (hfind : t.find sess addr = some b) :
    b ∈ (t.table sess).refs ∧ (t.heap b).target = addr := by
  refine ⟨mem_of_find?_eq_some hfind, ?_⟩
  simpa using find?_some hfind

section

variable (h : Exact t) (rejected : Bool)
include h

lemma Exact.lookupBinding : Answer sess addr (t.lookupBinding rejected sess addr) := by
  have hempty : Exact { t with last := update t.last sess none } := h.relast nofun
  unfold UplinkTables.lookupBinding
  dsimp only
  split
  · rename_i hfind
    refine hempty.openFlow rejected fun c hc => ?_
    simpa using find?_eq_none.mp hfind c hc
  rename_i b hfind
  obtain ⟨hmem, haddr⟩ := find_spec hfind
  obtain ⟨hlt, hsess⟩ := h.listed sess b hmem
  split
  · rename_i hstate
    refine Exact.answer ?_ (h.live sess b hmem hstate) hstate hsess haddr
    refine hempty.relast ?_
    rintro a c ⟨⟩
    exact ⟨hlt, hsess, haddr, fun _ => hmem⟩
  rename_i hstate
  have hclosed : (t.heap b).state = .closed := by simpa using hstate
  obtain ⟨-, hsub, -⟩ := (t.table sess).without_refs (t.heap b).wireId (t.flows sess)
  have hgone := not_mem_without (r := t.table sess) ((h.single sess).of_map _) rfl
    fun c hc hid => h.eq_of_id hc hmem hid
  have hforget : Exact (t.purge [(t.heap b).wireId] []) := by
    refine h.purge fun s c hc hopen hid => ?_
    obtain rfl := h.eq_of_id hc hmem (mem_singleton.mp hid)
    exact absurd hclosed hopen
  rw [purge_nil] at hforget ⊢
  refine Exact.openFlow (hforget.relist ?_ ?_ ?_ ?_) rejected ?_
  · exact fun c hc => h.listed sess c (hsub.mem hc)
  · exact fun c hc => hforget.live sess c (hsub.mem hc)
  · exact (h.single sess).sublist (hsub.map _)
  · exact nofun
  · intro c hc htarget
    simp only [table, refs, update_self] at hc
    obtain rfl := h.eq_of_target (hsub.mem hc) hmem (htarget.trans haddr.symm)
    exact hgone hc

/-- A binding that the memo answers with. -/
lemma Exact.of_memo {m : TargetAddr × Nat} (hm : ((t.last sess).filter fun m =>
      m.1 = addr && (t.heap m.2).session = sess && (t.heap m.2).state ≠ .closed) = some m) :
    m.2 ∈ (t.table sess).refs ∧ (t.heap m.2).target = addr ∧ (t.heap m.2).state ≠ .closed := by
  obtain ⟨hlast, hcond⟩ := Option.filter_eq_some_iff.mp hm
  simp only [Bool.and_eq_true, decide_eq_true_eq] at hcond
  obtain ⟨-, -, htarget, hmem⟩ := h.memo sess m.1 m.2 hlast
  exact ⟨hmem hcond.2, htarget.trans hcond.1.1, hcond.2⟩

lemma Exact.ensureBinding : Answer sess addr (t.ensureBinding rejected sess addr) := by
  unfold UplinkTables.ensureBinding
  split
  · rename_i b hm
    obtain ⟨hmem, haddr, hstate⟩ := h.of_memo hm
    exact h.answer (h.live sess b hmem hstate) hstate (h.listed sess b hmem).2 haddr
  · exact h.lookupBinding rejected

/-- The memo changes no answer. -/
lemma Exact.ensureBinding_eq :
    (t.ensureBinding rejected sess addr).1 = (t.lookupBinding rejected sess addr).1 := by
  unfold UplinkTables.ensureBinding
  split
  · rename_i b hm
    obtain ⟨hmem, haddr, hstate⟩ := h.of_memo hm
    have hfind : t.find sess addr = some b := by
      obtain ⟨c, hc⟩ : ∃ c, t.find sess addr = some c :=
        Option.isSome_iff_exists.mp (find?_isSome.mpr ⟨b, hmem, decide_eq_true haddr⟩)
      obtain ⟨hmem', haddr'⟩ := find_spec hc
      rw [hc, h.eq_of_target hmem' hmem (haddr'.trans haddr.symm)]
    have hfind' : find { t with last := update t.last sess none } sess addr = some b := hfind
    simp [UplinkTables.lookupBinding, hfind', hstate]
  · rfl

lemma Exact.next (ev : UplinkTablesEvent) (hev : t.Steady ev) : Exact (t.next ev) := by
  cases ev with
  | install id sess src =>
    unfold UplinkTables.next installServerFlow
    dsimp only
    split
    · exact h
    rename_i hcond
    simp only [Bool.or_eq_true, Bool.not_eq_true', not_or, Bool.not_eq_false,
      Option.isSome_iff_ne_none, ne_eq, not_not] at hcond
    refine h.added h.client UInt32.le_rfl hcond.1.2 hev fun howner => ?_
    exact absurd (hcond.1.1.symm.trans howner) nofun
  | drop id =>
    refine h.purge fun s b hb hstate hid => ?_
    rw [← mem_singleton.mp hid, h.live s b hb hstate]
    exact mem_singleton_self b
  | closeSession sess =>
    refine h.purge fun s b hb hstate hid => ?_
    obtain ⟨c, hc, heq⟩ := mem_map.mp hid
    obtain ⟨hentry, hsess⟩ := mem_filter.mp hc
    obtain ⟨⟨id, c⟩, hpair, rfl⟩ := mem_map.mp hentry
    have hlt := (h.bound id c (AList.mem_lookup_iff.mpr hpair)).1
    obtain ⟨hsame, -⟩ := h.named c hlt b (h.listed s b hb).1 heq
    have hlookup := AList.mem_lookup_iff.mp (h.live s b hb hstate)
    refine mem_filter.mpr ⟨mem_map.mpr ⟨_, hlookup, rfl⟩, ?_⟩
    rwa [← hsame]
  | opened id =>
    refine h.modify id fun b => ?_
    unfold markOpen
    split <;> simp_all
  | rearm id =>
    refine h.modify id fun b => ?_
    unfold rearmContext
    split <;> simp_all
  | sync sess =>
    have hpurge : Exact (t.purge ((t.table sess).refs.map fun b => (t.heap b).wireId)
        (t.table sess).refs) := by
      refine h.purge fun s b hb hstate hid => ?_
      obtain ⟨c, hc, heq⟩ := mem_map.mp hid
      obtain rfl := h.eq_of_id hb hc heq.symm
      exact hc
    have hnone : (List.replicate maxFlowsPerSession (none : Option Nat)).filterMap id = [] := by
      simp
    exact hpurge.relist (by simp) (by simp) (by rw [hnone]; exact .nil) nofun
  | ensure sess addr rejected => exact (h.ensureBinding rejected).exact

end

lemma exact_new (wire : Wire) (cap : Nat) : Exact (new wire cap) := by
  constructor <;> simp [refs, table, new, FlowIds.new]

/-- Where the server announces an id for one source only: a lookup answers with a binding of its
session and its target that is registered and not closed, the same that it would find without
the memo, and no association has two for one target. -/
theorem ensure_binding_exact (wire : Wire) (cap : Nat) (evs : List UplinkTablesEvent)
    (h : Along next Steady (new wire cap) evs) (rejected : Bool) (sess : UInt32)
    (addr : TargetAddr) :
    let t := after next (new wire cap) evs
    let out := t.ensureBinding rejected sess addr
    (∀ b ∈ out.1, (out.2.heap b).state ≠ .closed ∧ (out.2.heap b).session = sess ∧
      (out.2.heap b).target = addr ∧ out.2.registry.lookup (out.2.heap b).wireId = some b) ∧
    ((t.table sess).refs.map fun b => (t.heap b).target).Nodup ∧
    out.1 = (t.lookupBinding rejected sess addr).1 := by
  have hexact : Exact (after next (new wire cap) evs) :=
    after_of_invariant (fun _ ev h hev => h.next ev hev) (exact_new wire cap) h
  exact ⟨(hexact.ensureBinding rejected).found, hexact.single sess,
    hexact.ensureBinding_eq rejected⟩

/-- A flow that the server opened is taken over, and another is opened once it is closed. -/
theorem ensure_binding_exact_after_drop :
    let src : SocketAddr := .v4 (.new 9 9 9 9) 53
    let evs := [.install 3 7 src, .ensure 7 (.ip src) false, .drop 3]
    let out := (after next (new .rev2 8) evs).ensureBinding false 7 (.ip src)
    Along next Steady (new .rev2 8) evs ∧ out.1 = some 1 ∧ (out.2.heap 1).state ≠ .closed := by
  intro src evs out
  have honce : Along next Steady (new .rev2 8) evs := by decide
  have hout : out.1 = some 1 := by decide
  exact ⟨honce, hout, ((ensure_binding_exact .rev2 8 evs honce false 7 (.ip src)).1 1 hout).1⟩

/-- The server announces an id again for another source. The table keeps the closed binding of
that id, so only the memo has the new one: for a rejected target the memo still answers. -/
theorem memo_alone_answers :
    let src : SocketAddr := .v4 (.new 9 9 9 9) 53
    let other : SocketAddr := .v4 (.new 8 8 8 8) 53
    let evs := [.install 3 7 src, .ensure 7 (.ip src) false, .drop 3, .install 3 7 other,
      .ensure 7 (.ip other) false]
    let t := after next (new .rev2 8) evs
    (t.ensureBinding true 7 (.ip other)).1 = some 1 ∧
      (t.lookupBinding true 7 (.ip other)).1 = none := by
  decide

end UplinkTables

end MyQuic2
