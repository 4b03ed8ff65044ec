import MyQuic2.Core.Map
import MyQuic2.Mqp.Adapter
import MyQuic2.Mqp.Flow

/-!
# The flow registry of a connection

Each end keeps its bindings by id, together with the ids of every session and
the number of flows the server owns. Tasks call the registry at the same time.
What runs under the lock of the map is one step; the purge of a session takes its
ids from the index in one step and removes them from the map in another.
-/

namespace MyQuic2

open List AList FlowIds Wire

/-- Why an insert was refused. -/
inductive RegistryError where
  | full
  | conflict
  deriving DecidableEq

/-- The bindings of a connection with their two indexes. -/
structure FlowRegistry where
  cap : Nat
  map : Map UInt32 FlowBinding
  bySession : Map UInt32 (List UInt32)
  serverFlowCount : Int

namespace FlowRegistry

variable (r : FlowRegistry) (b : FlowBinding)

def new (cap : Nat) : FlowRegistry := ⟨cap, ∅, ∅, 0⟩

/-- What an id adds to the count of flows the server owns. -/
def weight (wireId : UInt32) : Int := if wireIdServerOwned wireId then 1 else 0

/-- The ids the index lists for a session. -/
def listed (session : UInt32) : List UInt32 :=
  (r.bySession.lookup session).getD []

def indexBinding : FlowRegistry :=
  { r with
    bySession := r.bySession.insert b.session (r.listed b.session ++ [b.wireId])
    serverFlowCount := r.serverFlowCount + weight b.wireId }

def unindexBinding : FlowRegistry :=
  { r with
    bySession :=
      match r.bySession.lookup b.session with
      | none => r.bySession
      | some ids =>
        let ids := if b.wireId ∈ ids then swapRemove ids (ids.idxOf b.wireId) else ids
        if ids.isEmpty then r.bySession.erase b.session else r.bySession.insert b.session ids
    serverFlowCount := r.serverFlowCount - weight b.wireId }

def add : FlowRegistry :=
  indexBinding { r with map := r.map.insert b.wireId b } b

/-- An open of an id that is bound already succeeds for the same session and target only. -/
def reopen (existing b : FlowBinding) : Except RegistryError FlowBinding :=
  if existing.session = b.session ∧ existing.target = b.target then .ok existing
  else .error .conflict

def insert : Except RegistryError FlowBinding × FlowRegistry :=
  match r.map.lookup b.wireId with
  | some existing => (reopen existing b, r)
  | none => if r.cap ≤ r.map.size then (.error .full, r) else (.ok b, r.add b)

/-- The id of a new flow: none with a full registry or when the wire can carry no further id. -/
def allocFor (w : Wire) (ids : FlowIds) : Option UInt32 × FlowIds :=
  if r.cap ≤ r.map.size then (none, ids)
  else if w = .rev3 ∧ maxR3LocalId ≤ ids.next then (none, ids)
  else ids.allocWireId w

def insertNewFor (w : Wire) (ids : FlowIds) (session : UInt32) (target : TargetAddr) :
    Except RegistryError FlowBinding × FlowRegistry × FlowIds :=
  match r.allocFor w ids with
  | (none, ids) => (.error .full, r, ids)
  | (some wireId, ids) =>
    let b := FlowBinding.new wireId session target
    match r.map.lookup wireId with
    | some existing => (reopen existing b, r, ids)
    | none => (.ok b, r.add b, ids)

def remove (wireId : UInt32) : Option FlowBinding × FlowRegistry :=
  match r.map.lookup wireId with
  | none => (none, r)
  | some b => (some b, unindexBinding { r with map := r.map.erase wireId } b)

/-- Take the ids of a session out of the index, each with the session. -/
def takeSession (session : UInt32) : Option (List (UInt32 × UInt32)) × FlowRegistry :=
  ((r.bySession.lookup session).map fun ids => ids.map (session, ·),
    { r with bySession := r.bySession.erase session })

def takeSessions (r : FlowRegistry) : List UInt32 → List (UInt32 × UInt32) × FlowRegistry
  | [] => ([], r)
  | session :: sessions =>
    let (taken, r) := r.takeSession session
    let (rest, r) := r.takeSessions sessions
    (taken.getD [] ++ rest, r)

/-- Remove the ids that were taken from the index. Each removed binding is closed; it is returned
with the session it was taken for. -/
def purge (r : FlowRegistry) :
    List (UInt32 × UInt32) → List (UInt32 × FlowBinding) × FlowRegistry
  | [] => ([], r)
  | (session, wireId) :: taken =>
    match r.map.lookup wireId with
    | none => r.purge taken
    | some b =>
      let (closed, r) := purge
        { r with
          map := r.map.erase wireId
          serverFlowCount := r.serverFlowCount - weight b.wireId } taken
      ((session, b.markClosed) :: closed, r)

def clear : FlowRegistry :=
  { r with map := ∅, bySession := ∅, serverFlowCount := 0 }

end FlowRegistry

/-- What the tasks of one end do, one locked section at a time. -/
inductive RegistryEvent where
  | insert (b : FlowBinding)
  | insertNewFor (session : UInt32) (target : TargetAddr)
  | remove (wireId : UInt32)
  | removeSession (session : UInt32)
  | removeSessions (sessions : List UInt32)
  /-- The map section of one of the purges in progress. -/
  | finish (i : Nat)
  | clear
  /-- The install for an unsolicited source looks for room in the two tables. -/
  | lookUnsolicited (tableFull : Bool) (session : UInt32) (src : SocketAddr)
  /-- An install that saw room gets its id; it inserts the binding later. -/
  | allocUnsolicited (i : Nat)

/-- One end of a connection with its purges in progress, the ids it has handed out so far, each with
the session and the target it was for, and the installs that saw room. -/
structure RegistryTasks where
  wire : Wire
  ids : FlowIds
  registry : FlowRegistry
  purges : List (List (UInt32 × UInt32))
  issued : List (UInt32 × UInt32 × TargetAddr)
  installs : List (UInt32 × SocketAddr)

namespace RegistryTasks

variable (t : RegistryTasks) (out : Option UInt32 × FlowIds) (session : UInt32)
  (target : TargetAddr)

def new (wire : Wire) (serverOwned : Bool) (cap : Nat) : RegistryTasks :=
  ⟨wire, .new serverOwned, .new cap, [], [], []⟩

/-- Note the id that was handed out, if any. -/
def issue : RegistryTasks :=
  { t with ids := out.2, issued := t.issued ++ out.1.toList.map (·, session, target) }

def next : RegistryEvent → RegistryTasks
  | .insert b => { t with registry := (t.registry.insert b).2 }
  | .insertNewFor session target =>
    { t.issue (t.registry.allocFor t.wire t.ids) session target with
      registry := (t.registry.insertNewFor t.wire t.ids session target).2.1 }
  | .remove wireId => { t with registry := (t.registry.remove wireId).2 }
  | .removeSession session =>
    let (taken, registry) := t.registry.takeSession session
    { t with registry := registry, purges := t.purges ++ taken.toList }
  | .removeSessions sessions =>
    let (taken, registry) := t.registry.takeSessions sessions
    { t with registry := registry, purges := t.purges ++ [taken] }
  | .finish i =>
    { t with
      registry := (t.registry.purge (t.purges[i]?.getD [])).2
      purges := t.purges.eraseIdx i }
  | .clear => { t with registry := t.registry.clear }
  | .lookUnsolicited tableFull session src =>
    if tableFull ∨ t.registry.cap ≤ t.registry.map.size then t
    else { t with installs := t.installs ++ [(session, src)] }
  | .allocUnsolicited i =>
    match t.installs[i]? with
    | none => t
    | some (session, src) =>
      { t.issue (t.ids.allocWireId t.wire) session (.ip src) with
        installs := t.installs.eraseIdx i }

/-- The bindings an event closes, each with the session it is closed for. -/
def closed : RegistryEvent → List (UInt32 × FlowBinding)
  | .finish i => (t.registry.purge (t.purges[i]?.getD [])).1
  | _ => []

end RegistryTasks

namespace FlowIds

def ownerBit (ids : FlowIds) : Nat := if ids.serverOwned then 1 else 0

/-- What asking for an id can give: the counter goes up, past every id handed out before if there is
a new one, which the wire can carry. -/
structure Grant (w : Wire) (ids : FlowIds) (out : Option UInt32 × FlowIds) : Prop where
  owner : out.2.serverOwned = ids.serverOwned
  mono : ids.next ≤ out.2.next
  fresh : ∀ id, out.1 = some id →
    ids.next < out.2.next ∧ id.toNat = 2 * out.2.next.toNat + ids.ownerBit ∧
      (w = .rev3 → (fidFor id).isSome = true)

variable {w : Wire} {ids : FlowIds}

lemma grant_refused : Grant w ids (none, ids) := ⟨rfl, UInt32.le_refl _, nofun⟩

lemma makeWireId_eq {n : UInt32} (hpos : 1 ≤ n.toNat) (hmax : n ≤ maxLocalFlowId) (owner : Bool) :
    ∃ id, makeWireId n owner = some id ∧ id.toNat = 2 * n.toNat + if owner then 1 else 0 := by
  have hle : n.toNat ≤ 0x7FFFFFFF := UInt32.le_iff_toNat_le.mp hmax
  have hne : n ≠ 0 := by
    rintro rfl
    exact absurd hpos (by decide)
  have hshift : (n <<< 1).toNat = 2 * n.toNat := by
    rw [UInt32.toNat_shiftLeft]
    simp only [UInt32.reduceToNat, Nat.reduceMod, Nat.shiftLeft_eq]
    omega
  refine ⟨_, if_neg ?_, ?_⟩
  · rw [Bool.or_eq_true, decide_eq_true_eq, decide_eq_true_eq]
    rintro (h | h)
    · exact hne h
    · exact absurd hmax (UInt32.not_le.mpr h)
  · rw [UInt32.toNat_or, hshift]
    cases owner with
    | false => exact Nat.or_zero _
    | true => exact (Nat.two_pow_add_eq_or_of_lt (i := 1) (b := 1) (by omega) n.toNat).symm

lemma alloc_eq (h : ¬ maxLocalFlowId ≤ ids.next) :
    ∃ id, ids.alloc = (some id, { ids with next := ids.next + 1 }) ∧
      (ids.next + 1).toNat = ids.next.toNat + 1 ∧
      id.toNat = 2 * (ids.next + 1).toNat + ids.ownerBit := by
  have hlt : ids.next.toNat < 0x7FFFFFFF := UInt32.lt_iff_toNat_lt.mp (UInt32.not_le.mp h)
  have hsucc : (ids.next + 1).toNat = ids.next.toNat + 1 := by
    exact Nat.mod_eq_of_lt (Nat.lt_trans (Nat.succ_lt_succ hlt) (by decide))
  have hmax : ids.next + 1 ≤ maxLocalFlowId := by
    rw [UInt32.le_iff_toNat_le, hsucc]
    exact hlt
  obtain ⟨id, hid, hval⟩ := makeWireId_eq (by omega) hmax ids.serverOwned
  refine ⟨id, ?_, hsucc, hval⟩
  rw [alloc, if_neg h, hid]

lemma grant_allocWireId : Grant w ids (ids.allocWireId w) := by
  by_cases hmax : maxLocalFlowId ≤ ids.next
  · have hnone : ids.alloc = (none, ids) := if_pos hmax
    rw [allocWireId, hnone]
    exact grant_refused
  obtain ⟨id, halloc, hsucc, hval⟩ := alloc_eq hmax
  have hlt : ids.next < ids.next + 1 := UInt32.lt_iff_toNat_lt.mpr (by omega)
  rw [allocWireId, halloc]
  refine ⟨rfl, UInt32.le_of_lt hlt, fun found hfound => ?_⟩
  cases w with
  | rev2 =>
    cases hfound
    exact ⟨hlt, hval, nofun⟩
  | rev3 =>
    obtain ⟨fid, hfid, rfl⟩ := Option.map_eq_some_iff.mp hfound
    exact ⟨hlt, hval, fun _ => by rw [hfid]; rfl⟩

/-- Below the last id that rev3 can carry, an id is always handed out. -/
lemma isSome_allocWireId_rev3 (h : ids.next < maxR3LocalId) :
    (ids.allocWireId .rev3).1.isSome = true := by
  have hlt : ids.next.toNat < 0x2000 := UInt32.lt_iff_toNat_lt.mp h
  have hmax : ¬ maxLocalFlowId ≤ ids.next := by
    exact Nat.not_le.mpr (Nat.lt_trans hlt (by decide))
  obtain ⟨id, halloc, hsucc, hval⟩ := alloc_eq hmax
  have hbit : ids.ownerBit ≤ 1 := by
    unfold ownerBit
    split <;> omega
  obtain ⟨fid, hfid⟩ : ∃ fid, fidFor id = some fid := by
    refine ⟨.ofNat ((if id.toNat % 2 = 0 then 0 else 0x2000) + (id.toNat / 2 - 1)),
      fidFor_eq_some.mpr ⟨⟨by omega, by omega⟩, ?_⟩⟩
    refine Nat.mod_eq_of_lt ?_
    split <;> omega
  rw [allocWireId, halloc]
  dsimp only
  rw [hfid]
  rfl

end FlowIds

namespace FlowRegistry

variable {r : FlowRegistry} {w : Wire} {ids : FlowIds}

lemma grant_allocFor : ids.Grant w (r.allocFor w ids) := by
  unfold allocFor
  split
  · exact grant_refused
  split
  · exact grant_refused
  · exact grant_allocWireId

/-- A new flow that is refused an id costs none. -/
lemma allocFor_eq_none (h : (r.allocFor w ids).1 = none) : (r.allocFor w ids).2 = ids := by
  by_cases hfull : r.cap ≤ r.map.size
  · rw [allocFor, if_pos hfull]
  by_cases hspace : w = .rev3 ∧ maxR3LocalId ≤ ids.next
  · rw [allocFor, if_neg hfull, if_pos hspace]
  rw [allocFor, if_neg hfull, if_neg hspace] at h ⊢
  by_cases hmax : maxLocalFlowId ≤ ids.next
  · have hnone : ids.alloc = (none, ids) := if_pos hmax
    rw [allocWireId, hnone]
  cases w with
  | rev2 =>
    obtain ⟨id, halloc, -, -⟩ := alloc_eq hmax
    rw [allocWireId, halloc] at h
    cases h
  | rev3 =>
    have hlt : ids.next < maxR3LocalId := UInt32.not_le.mp fun hle => hspace ⟨rfl, hle⟩
    have hsome := isSome_allocWireId_rev3 hlt
    rw [h] at hsome
    cases hsome

lemma insertNewFor_full {session : UInt32} {target : TargetAddr}
    (h : (r.insertNewFor w ids session target).1 = .error .full) :
    (r.insertNewFor w ids session target).2.2 = ids := by
  unfold insertNewFor at h ⊢
  cases hget : r.allocFor w ids with
  | mk got ids' =>
    rw [hget] at h
    cases got with
    | none =>
      have hsame := allocFor_eq_none (by rw [hget])
      rw [hget] at hsame
      exact hsame
    | some id =>
      dsimp only at h
      split at h
      · unfold reopen at h
        split at h <;> cases h
      · cases h

end FlowRegistry

namespace RegistryTasks

variable {t : RegistryTasks}

/-- The ids handed out so far go up, stay below the counter, and are this end's own. -/
structure Issued (wire : Wire) (serverOwned : Bool) (t : RegistryTasks) : Prop where
  wire_eq : t.wire = wire
  owner : t.ids.serverOwned = serverOwned
  increasing : t.issued.Pairwise fun x y => x.1 < y.1
  below : ∀ x ∈ t.issued, x.1.toNat ≤ 2 * t.ids.next.toNat + t.ids.ownerBit
  own : ∀ x ∈ t.issued, 1 ≤ x.1.toNat / 2 ∧ x.1.toNat % 2 = t.ids.ownerBit
  carried : ∀ x ∈ t.issued, wire = .rev3 → (fidFor x.1).isSome = true

variable {serverOwned : Bool} {wire : Wire}

section

variable (h : Issued wire serverOwned t)
include h

lemma Issued.issue {out : Option UInt32 × FlowIds} (hout : t.ids.Grant t.wire out)
    (session : UInt32) (target : TargetAddr) :
    Issued wire serverOwned (t.issue out session target) := by
  have hbit : out.2.ownerBit = t.ids.ownerBit := by rw [ownerBit, hout.owner]; rfl
  have hmono := UInt32.le_iff_toNat_le.mp hout.mono
  have hle : t.ids.ownerBit ≤ 1 := by
    unfold ownerBit
    split <;> omega
  have hnew : ∀ x ∈ out.1.toList.map (·, session, target), t.ids.next < out.2.next ∧
      x.1.toNat = 2 * out.2.next.toNat + t.ids.ownerBit ∧
      (wire = .rev3 → (fidFor x.1).isSome = true) := by
    intro x hx
    obtain ⟨id, hid, rfl⟩ := mem_map.mp hx
    have hfresh := hout.fresh id (Option.mem_toList.mp hid)
    rw [h.wire_eq] at hfresh
    exact hfresh
  refine ⟨h.wire_eq, hout.owner.trans h.owner, ?_, ?_, ?_, ?_⟩
  · refine pairwise_append.mpr ⟨h.increasing, ?_, ?_⟩
    · cases out.1 with
      | none => exact List.Pairwise.nil
      | some id => exact pairwise_singleton _ _
    · intro x hx y hy
      obtain ⟨hlt, hval, -⟩ := hnew y hy
      have := h.below x hx
      rw [UInt32.lt_iff_toNat_lt] at hlt ⊢
      omega
  · intro x hx
    rw [show (t.issue out session target).ids = out.2 from rfl, hbit]
    rcases mem_append.mp hx with hold | hx
    · have := h.below x hold
      omega
    · have := (hnew x hx).2.1
      omega
  · intro x hx
    rw [show (t.issue out session target).ids = out.2 from rfl, hbit]
    rcases mem_append.mp hx with hold | hx
    · exact h.own x hold
    obtain ⟨hlt, hval, -⟩ := hnew x hx
    rw [UInt32.lt_iff_toNat_lt] at hlt
    omega
  · intro x hx
    rcases mem_append.mp hx with hold | hx
    · exact h.carried x hold
    · exact (hnew x hx).2.2

/-- An id is handed out once. -/
lemma Issued.inj : ∀ x ∈ t.issued, ∀ y ∈ t.issued, x.1 = y.1 → x = y := by
  have hnodup : (t.issued.map Prod.fst).Nodup := by
    refine pairwise_map.mpr (h.increasing.imp ?_)
    intro x y hlt heq
    rw [heq] at hlt
    exact UInt32.lt_irrefl _ hlt
  exact inj_on_of_nodup_map hnodup

lemma Issued.wireIdServerOwned : ∀ x ∈ t.issued, wireIdServerOwned x.1 = serverOwned := by
  intro x hx
  have hbit := (h.own x hx).2
  rw [ownerBit, h.owner] at hbit
  rw [Bool.eq_iff_iff, wireIdServerOwned_iff, hbit]
  cases serverOwned <;> simp

lemma Issued.congr {t' : RegistryTasks} (hwire : t'.wire = t.wire) (hids : t'.ids = t.ids)
    (hissued : t'.issued = t.issued) : Issued wire serverOwned t' where
  wire_eq := hwire.trans h.wire_eq
  owner := hids ▸ h.owner
  increasing := hissued ▸ h.increasing
  below := by
    rw [hissued, hids]
    exact h.below
  own := by
    rw [hissued, hids]
    exact h.own
  carried := hissued ▸ h.carried

end

lemma Issued.next (h : Issued wire serverOwned t) (ev : RegistryEvent) :
    Issued wire serverOwned (t.next ev) := by
  -- Only the two allocations touch the counter.
  cases ev with
  | insertNewFor session target =>
    exact (h.issue t.registry.grant_allocFor session target).congr rfl rfl rfl
  | lookUnsolicited tableFull session src =>
    simp only [RegistryTasks.next]
    split
    · exact h
    · exact h.congr rfl rfl rfl
  | allocUnsolicited i =>
    simp only [RegistryTasks.next]
    split
    · exact h
    · exact (h.issue grant_allocWireId _ _).congr rfl rfl rfl
  | insert _ | remove _ | removeSession _ | removeSessions _ | finish _ | clear =>
    exact h.congr rfl rfl rfl

lemma issued_after (wire : Wire) (serverOwned : Bool) (cap : Nat) (es : List RegistryEvent) :
    Issued wire serverOwned (after RegistryTasks.next (new wire serverOwned cap) es) :=
  after_of_kept (fun _ ev h => h.next ev) ⟨rfl, rfl, .nil, nofun, nofun, nofun⟩ es

/-- In every run of one end, the ids it hands out increase, carry its owner bit, are not zero and
have a number on rev3, so that none ever names a second session or target; and a new flow that is
refused for want of room or of ids costs none. -/
theorem ids_never_reused (wire : Wire) (serverOwned : Bool) (cap : Nat)
    (es : List RegistryEvent) :
    let t := after RegistryTasks.next (new wire serverOwned cap) es
    (t.issued.Pairwise fun x y => x.1 < y.1) ∧
      (∀ x ∈ t.issued, x.1 ≠ 0 ∧ Wire.wireIdServerOwned x.1 = serverOwned ∧
        (wire = .rev3 → (Wire.fidFor x.1).isSome = true)) ∧
      (∀ x ∈ t.issued, ∀ y ∈ t.issued, x.1 = y.1 → x = y) ∧
      ∀ session target, (t.registry.insertNewFor wire t.ids session target).1 = .error .full →
        (t.registry.insertNewFor wire t.ids session target).2.2 = t.ids := by
  intro t
  have hissued : Issued wire serverOwned t := issued_after wire serverOwned cap es
  refine ⟨hissued.increasing,
    fun x hx => ⟨?_, hissued.wireIdServerOwned x hx, hissued.carried x hx⟩, hissued.inj, ?_⟩
  · intro hzero
    have hpos := (hissued.own x hx).1
    rw [hzero] at hpos
    exact absurd hpos (by decide)
  · intro session target hfull
    exact FlowRegistry.insertNewFor_full hfull

/-- No id is handed out twice, by one end or by both, and on rev3 no number. -/
theorem ids_apart (wire : Wire) (m n : Nat) (client server : List RegistryEvent) :
    ((after RegistryTasks.next (new wire false m) client).issued ++
      (after RegistryTasks.next (new wire true n) server).issued).Pairwise fun x y =>
        x.1 ≠ y.1 ∧ (wire = .rev3 → fidFor x.1 ≠ fidFor y.1) := by
  have h := issued_after wire
  have hids := pairwise_append.mpr ⟨(h ..).increasing.imp UInt32.ne_of_lt,
    (h ..).increasing.imp UInt32.ne_of_lt, fun x hx y hy heq => by
      have hown := (h false m client).wireIdServerOwned x hx
      rw [heq, (h true n server).wireIdServerOwned y hy] at hown
      cases hown⟩
  refine hids.imp_of_mem fun {x y} hx _ hne => ⟨hne, fun hrev hfid => hne ?_⟩
  obtain ⟨fid, hx⟩ := Option.isSome_iff_exists.mp <|
    (mem_append.mp hx).elim ((h ..).carried x · hrev) ((h ..).carried x · hrev)
  have hy := wireIdForFid_fidFor (hfid.symm.trans hx)
  rw [wireIdForFid_fidFor hx] at hy
  exact Option.some.inj hy

end RegistryTasks

namespace FlowRegistry

/-- The indexes agree with the map. -/
structure Exact (r : FlowRegistry) : Prop where
  /-- A session lists the ids of its own bindings. -/
  listed_iff : ∀ session id,
    id ∈ r.listed session ↔ ∃ b, r.map.lookup id = some b ∧ b.session = session
  once : ∀ session, (r.listed session).Nodup
  count : r.serverFlowCount = r.map.countKeys wireIdServerOwned
  within : r.map.size ≤ r.cap

/-- The indexes, together with what purges in progress have taken from them, agree with the map. -/
structure Indexed (r : FlowRegistry) (purges : List (List (UInt32 × UInt32))) : Prop where
  named : ∀ id b, r.map.lookup id = some b → b.wireId = id
  once : ∀ session, (r.listed session).Nodup
  sound : ∀ session id, id ∈ r.listed session → ∃ b, r.map.lookup id = some b ∧ b.session = session
  complete : ∀ id b, r.map.lookup id = some b →
    id ∈ r.listed b.session ∨ ∃ p ∈ purges, (b.session, id) ∈ p
  /-- An id that was taken is listed no more, and is bound to no other session. -/
  held : ∀ p ∈ purges, ∀ x ∈ p, (∀ b, r.map.lookup x.2 = some b → b.session = x.1) ∧
    ∀ session, x.2 ∉ r.listed session
  count : r.serverFlowCount = r.map.countKeys wireIdServerOwned
  within : r.map.size ≤ r.cap

variable {r : FlowRegistry} {purges : List (List (UInt32 × UInt32))} {b : FlowBinding}

lemma Indexed.exact (h : r.Indexed []) : r.Exact where
  listed_iff session id := by
    constructor
    · exact h.sound session id
    · rintro ⟨b, hb, rfl⟩
      rcases h.complete id b hb with hmem | ⟨p, hp, -⟩
      · exact hmem
      · cases hp
  once := h.once
  count := h.count
  within := h.within

lemma weight_eq (id : UInt32) :
    weight id = ((if wireIdServerOwned id then 1 else 0 : Nat) : Int) := by
  unfold weight
  split <;> rfl

lemma listed_add (session : UInt32) :
    (r.add b).listed session =
      if session = b.session then r.listed session ++ [b.wireId] else r.listed session := by
  unfold listed add indexBinding
  by_cases hs : session = b.session
  · rw [if_pos hs, hs, lookup_insert]
    rfl
  · rw [if_neg hs, lookup_insert_ne hs]

variable {session : UInt32}

lemma mem_listed_add {id : UInt32} :
    id ∈ (r.add b).listed session ↔
      id ∈ r.listed session ∨ session = b.session ∧ id = b.wireId := by
  rw [listed_add]
  split
  · rename_i hs
    simp [hs]
  · rename_i hs
    simp [hs]

/-- A binding with a new id that no purge holds keeps the indexes in step. -/
lemma Indexed.add (h : r.Indexed purges) (hnone : r.map.lookup b.wireId = none)
    (hroom : r.map.size < r.cap) (hfree : ∀ p ∈ purges, ∀ x ∈ p, x.2 ≠ b.wireId) :
    (r.add b).Indexed purges := by
  have hmap : (r.add b).map = r.map.insert b.wireId b := rfl
  have hlookup : ∀ id, id ≠ b.wireId → (r.add b).map.lookup id = r.map.lookup id := by
    intro id hid
    rw [hmap, lookup_insert_ne hid]
  have hown : (r.add b).map.lookup b.wireId = some b := by rw [hmap, lookup_insert]
  have hunlisted : ∀ session, b.wireId ∉ r.listed session := by
    intro session hmem
    obtain ⟨b', hb', -⟩ := h.sound session _ hmem
    rw [hnone] at hb'
    cases hb'
  refine ⟨?_, ?_, ?_, ?_, ?_, ?_, ?_⟩
  · intro id b' hb'
    by_cases hid : id = b.wireId
    · rw [hid, hown] at hb'
      cases hb'
      exact hid.symm
    · rw [hlookup id hid] at hb'
      exact h.named id b' hb'
  · intro session
    rw [listed_add]
    split
    · exact nodup_append.mpr ⟨h.once session, nodup_singleton _, by
        intro x hx y hy heq
        rw [mem_singleton.mp hy] at heq
        exact hunlisted session (heq ▸ hx)⟩
    · exact h.once session
  · intro session id hmem
    rcases mem_listed_add.mp hmem with hmem | ⟨rfl, rfl⟩
    · obtain ⟨b', hb', hsession⟩ := h.sound session id hmem
      have hid : id ≠ b.wireId := by
        rintro rfl
        exact hunlisted session hmem
      exact ⟨b', (hlookup id hid).trans hb', hsession⟩
    · exact ⟨b, hown, rfl⟩
  · intro id b' hb'
    by_cases hid : id = b.wireId
    · rw [hid, hown] at hb'
      cases hb'
      exact .inl (mem_listed_add.mpr (.inr ⟨rfl, hid⟩))
    rw [hlookup id hid] at hb'
    rcases h.complete id b' hb' with hmem | hheld
    · exact .inl (mem_listed_add.mpr (.inl hmem))
    · exact .inr hheld
  · intro p hp x hx
    obtain ⟨hbound, hlisted⟩ := h.held p hp x hx
    have hid := hfree p hp x hx
    refine ⟨fun b' hb' => hbound b' ((hlookup x.2 hid).symm.trans hb'), fun session hmem => ?_⟩
    rcases mem_listed_add.mp hmem with hmem | ⟨-, heq⟩
    · exact hlisted session hmem
    · exact hid heq
  · have hcount := Map.countKeys_insert_of_lookup_eq_none hnone b wireIdServerOwned
    rw [hmap, hcount, Int.natCast_add, ← weight_eq, ← h.count]
    rfl
  · rw [hmap, Map.size_insert_of_lookup_eq_none hnone b]
    exact hroom

/-- Nothing but the map and what depends on it has changed, and the map has lost one id. -/
lemma Indexed.drop (h : r.Indexed purges) {r' : FlowRegistry} {wireId : UInt32}
    (hb : r.map.lookup wireId = some b) (hcap : r'.cap = r.cap) (hmap : r'.map = r.map.erase wireId)
    (hcount : r'.serverFlowCount = r.serverFlowCount - weight b.wireId)
    (honce : ∀ session, (r'.listed session).Nodup)
    (hlisted : ∀ session id, id ∈ r'.listed session ↔ id ∈ r.listed session ∧ id ≠ wireId) :
    r'.Indexed purges := by
  have hlookup : ∀ id b', r'.map.lookup id = some b' → id ≠ wireId ∧ r.map.lookup id = some b' := by
    intro id b' hb'
    rw [hmap] at hb'
    exact Map.lookup_erase_iff.mp hb'
  refine ⟨fun id b' hb' => h.named id b' (hlookup id b' hb').2, honce, ?_, ?_, ?_, ?_, ?_⟩
  · intro session id hmem
    obtain ⟨hmem, hid⟩ := (hlisted session id).mp hmem
    obtain ⟨b', hb', hsession⟩ := h.sound session id hmem
    refine ⟨b', ?_, hsession⟩
    rw [hmap, lookup_erase_ne hid]
    exact hb'
  · intro id b' hb'
    obtain ⟨hid, hb'⟩ := hlookup id b' hb'
    rcases h.complete id b' hb' with hmem | hheld
    · exact .inl ((hlisted b'.session id).mpr ⟨hmem, hid⟩)
    · exact .inr hheld
  · intro p hp x hx
    obtain ⟨hbound, hunlisted⟩ := h.held p hp x hx
    exact ⟨fun b' hb' => hbound b' (hlookup x.2 b' hb').2,
      fun session hmem => hunlisted session ((hlisted session x.2).mp hmem).1⟩
  · have hkeys := Map.countKeys_erase hb wireIdServerOwned
    rw [hcount, h.count, hkeys, hmap, h.named wireId b hb, Int.natCast_add, weight_eq]
    omega
  · rw [hmap, hcap]
    exact Nat.le_trans (Map.size_erase_le _ _) h.within

lemma listed_unindexBinding_perm (r : FlowRegistry) (b : FlowBinding) (session : UInt32) :
    ((r.unindexBinding b).listed session).Perm
      (if session = b.session then (r.listed session).erase b.wireId else r.listed session) := by
  unfold unindexBinding listed
  cases hids : r.bySession.lookup b.session with
  | none =>
    by_cases hs : session = b.session
    · rw [if_pos hs, hs, hids]
      exact .nil
    · rw [if_neg hs]
  | some ids =>
    dsimp only
    obtain ⟨left, hleft⟩ : ∃ left,
        (if b.wireId ∈ ids then swapRemove ids (ids.idxOf b.wireId) else ids) = left := ⟨_, rfl⟩
    have hperm : left.Perm (ids.erase b.wireId) := by
      rw [← hleft]
      split
      · rename_i hmem
        exact swapRemove_perm hmem
      · rename_i hmem
        rw [erase_of_not_mem hmem]
    have hqueue : Map.queue (if left.isEmpty then r.bySession.erase b.session
        else r.bySession.insert b.session left) session =
        if session = b.session then left else r.listed session := by
      split
      · rename_i hempty
        rw [isEmpty_iff.mp hempty, Map.queue_erase]
        rfl
      · exact Map.queue_insert ..
    rw [hleft]
    refine (Perm.of_eq hqueue).trans ?_
    split
    · rename_i hs
      rw [hs, hids]
      exact hperm
    · exact .refl _

lemma Indexed.remove (h : r.Indexed purges) (wireId : UInt32) :
    (r.remove wireId).2.Indexed purges := by
  unfold FlowRegistry.remove
  cases hb : r.map.lookup wireId with
  | none => exact h
  | some b =>
    have hperm := fun session =>
      listed_unindexBinding_perm { r with map := r.map.erase wireId } b session
    have hname := h.named wireId b hb
    refine h.drop hb rfl rfl rfl (fun session => ?_) (fun session id => ?_)
    · refine (hperm session).nodup_iff.mpr ?_
      split
      · exact (h.once session).erase _
      · exact h.once session
    rw [(hperm session).mem_iff]
    split
    · rw [hname, and_comm]
      exact (h.once session).mem_erase_iff
    rename_i hs
    refine ⟨fun hmem => ⟨hmem, ?_⟩, And.left⟩
    rintro rfl
    obtain ⟨b', hb', hsession⟩ := h.sound session id hmem
    rw [hb] at hb'
    cases hb'
    exact hs hsession.symm

lemma listed_takeSession (session' : UInt32) : (r.takeSession session).2.listed session' =
    if session' = session then [] else r.listed session' :=
  Map.queue_erase ..

lemma mem_listed_takeSession {session' id : UInt32} :
    id ∈ (r.takeSession session).2.listed session' ↔
      id ∈ r.listed session' ∧ session' ≠ session := by
  rw [listed_takeSession]
  split <;> simp [*]

lemma mem_takeSession {x : UInt32 × UInt32} :
    x ∈ (r.takeSession session).1.getD [] ↔ x.1 = session ∧ x.2 ∈ r.listed session := by
  unfold takeSession listed
  obtain ⟨s, id⟩ := x
  cases r.bySession.lookup session with
  | none => simp
  | some ids =>
    simp only [Option.map_some, Option.getD_some, mem_map, Prod.mk.injEq]
    constructor
    · rintro ⟨_, hmem, rfl, rfl⟩
      exact ⟨rfl, hmem⟩
    · rintro ⟨rfl, hmem⟩
      exact ⟨id, hmem, rfl, rfl⟩

section

variable (h : r.Indexed purges)
include h

/-- The ids that a purge takes from the index stay accounted for with it. -/
lemma Indexed.takeSession (session : UInt32) :
    (r.takeSession session).2.Indexed (purges ++ [(r.takeSession session).1.getD []]) where
  named := h.named
  once s := by
    rw [listed_takeSession]
    split
    · exact nodup_nil
    · exact h.once s
  sound s id hmem := h.sound s id (mem_listed_takeSession.mp hmem).1
  complete id b hb := by
    rcases h.complete id b hb with hmem | ⟨p, hp, hx⟩
    · by_cases hs : b.session = session
      · refine .inr ⟨_, mem_append_right _ (mem_singleton_self _), ?_⟩
        exact mem_takeSession.mpr ⟨hs, hs ▸ hmem⟩
      · exact .inl (mem_listed_takeSession.mpr ⟨hmem, hs⟩)
    · exact .inr ⟨p, mem_append_left _ hp, hx⟩
  held p hp x hx := by
    rcases mem_append.mp hp with hp | hp
    · obtain ⟨hbound, hlisted⟩ := h.held p hp x hx
      exact ⟨hbound, fun s hmem => hlisted s (mem_listed_takeSession.mp hmem).1⟩
    rw [mem_singleton.mp hp] at hx
    obtain ⟨hs, hmem⟩ := mem_takeSession.mp hx
    obtain ⟨b, hb, hsession⟩ := h.sound session x.2 hmem
    refine ⟨fun b' hb' => ?_, fun s hlisted => ?_⟩
    · rw [show r.map.lookup x.2 = some b' from hb'] at hb
      cases hb
      exact hsession.trans hs.symm
    · obtain ⟨hlisted, hne⟩ := mem_listed_takeSession.mp hlisted
      obtain ⟨b', hb', hsession'⟩ := h.sound s x.2 hlisted
      rw [hb] at hb'
      cases hb'
      exact hne (hsession'.symm.trans hsession)
  count := h.count
  within := h.within

/-- Which call holds a taken id does not matter. -/
lemma Indexed.regroup {purges' : List (List (UInt32 × UInt32))}
    (hsame : purges'.flatten = purges.flatten) : r.Indexed purges' := by
  have hmem : ∀ x, (∃ p ∈ purges', x ∈ p) ↔ ∃ p ∈ purges, x ∈ p := by
    intro x
    rw [← mem_flatten, ← mem_flatten, hsame]
  refine ⟨h.named, h.once, h.sound, fun id b hb => ?_, fun p hp x hx => ?_, h.count, h.within⟩
  · rw [hmem]
    exact h.complete id b hb
  · obtain ⟨q, hq, hxq⟩ := (hmem x).mp ⟨p, hp, hx⟩
    exact h.held q hq x hxq

open FlowRegistry

lemma Indexed.takeSessions (sessions : List UInt32) :
    (r.takeSessions sessions).2.Indexed (purges ++ [(r.takeSessions sessions).1]) := by
  induction sessions generalizing r purges with
  | nil => exact h.regroup (by simp [takeSessions])
  | cons session sessions ih =>
    have hrest := ih (h.takeSession session)
    exact hrest.regroup (by simp [takeSessions])

/-- The map section of a purge, while what it took still counts as held: it removes the ids it took
and closes bindings of their sessions only. -/
lemma Indexed.purge {taken : List (UInt32 × UInt32)} (hheld : ∀ x ∈ taken, ∃ p ∈ purges, x ∈ p) :
    (r.purge taken).2.Indexed purges ∧
      (∀ id, r.map.lookup id = none ∨ id ∈ taken.map Prod.snd →
        (r.purge taken).2.map.lookup id = none) ∧ ∀ c ∈ (r.purge taken).1, c.2.session = c.1 := by
  induction taken generalizing r with
  | nil =>
    refine ⟨h, fun id hid => ?_, nofun⟩
    rcases hid with hid | hid
    · exact hid
    · cases hid
  | cons x taken ih =>
    obtain ⟨session, wireId⟩ := x
    obtain ⟨p, hp, hx⟩ := hheld (session, wireId) mem_cons_self
    obtain ⟨hbound, hunlisted⟩ := h.held p hp _ hx
    have hrest : ∀ x ∈ taken, ∃ p ∈ purges, x ∈ p := fun x hx => hheld x (mem_cons_of_mem _ hx)
    unfold purge
    cases hb : r.map.lookup wireId with
    | none =>
      obtain ⟨hindexed, hgone, hclosed⟩ := ih h hrest
      refine ⟨hindexed, fun id hid => hgone id ?_, hclosed⟩
      rcases hid with hid | hid
      · exact .inl hid
      rcases mem_cons.mp hid with rfl | hid
      · exact .inl hb
      · exact .inr hid
    | some b =>
      have hdrop : Indexed { r with
          map := r.map.erase wireId
          serverFlowCount := r.serverFlowCount - weight b.wireId } purges := by
        refine h.drop hb rfl rfl rfl h.once fun s id => ⟨fun hmem => ⟨hmem, ?_⟩, And.left⟩
        rintro rfl
        exact hunlisted s hmem
      obtain ⟨hindexed, hgone, hclosed⟩ := ih hdrop hrest
      refine ⟨hindexed, fun id hid => hgone id ?_, fun c hc => ?_⟩
      · by_cases heq : id = wireId
        · left
          rw [heq]
          exact lookup_erase wireId r.map
        rcases hid with hid | hid
        · left
          exact (lookup_erase_ne heq).trans hid
        · exact .inr ((mem_cons.mp hid).resolve_left heq)
      · rcases mem_cons.mp hc with rfl | hc
        · exact hbound b hb
        · exact hclosed c hc

/-- A purge that has nothing left in the map may be forgotten. -/
lemma Indexed.forget {i : Nat} (hgone : ∀ x ∈ purges[i]?.getD [], r.map.lookup x.2 = none) :
    r.Indexed (purges.eraseIdx i) := by
  refine ⟨h.named, h.once, h.sound, fun id b hb => ?_,
    fun p hp => h.held p (mem_of_mem_eraseIdx hp), h.count, h.within⟩
  rcases h.complete id b hb with hmem | ⟨p, hp, hx⟩
  · exact .inl hmem
  right
  by_cases hi : i < purges.length
  · have hperm := getElem_cons_eraseIdx_perm hi
    rcases mem_cons.mp (hperm.mem_iff.mpr hp) with rfl | hp
    · rw [getElem?_eq_getElem hi] at hgone
      have := hgone _ hx
      rw [hb] at this
      cases this
    · exact ⟨p, hp, hx⟩
  · rw [eraseIdx_of_length_le (Nat.le_of_not_lt hi)]
    exact ⟨p, hp, hx⟩

end

lemma indexed_clear : r.clear.Indexed purges where
  named := nofun
  once _ := nodup_nil
  sound := nofun
  complete := nofun
  held _ _ _ _ := ⟨nofun, nofun⟩
  count := rfl
  within := Nat.zero_le _

end FlowRegistry

namespace RegistryTasks

variable {t : RegistryTasks}

/-- The id that an event adds to the map. -/
def added (t : RegistryTasks) : RegistryEvent → Option UInt32
  | .insert b =>
    if t.registry.map.lookup b.wireId = none ∧ t.registry.map.size < t.registry.cap then
      some b.wireId
    else none
  | .insertNewFor _ _ =>
    (t.registry.allocFor t.wire t.ids).1.filter fun id =>
      (t.registry.map.lookup id).isNone
  | _ => none

/-- The event adds no id that a purge in progress has taken from the index. -/
def Unclaimed (t : RegistryTasks) (ev : RegistryEvent) : Prop :=
  ∀ p ∈ t.purges, ∀ x ∈ p, t.added ev ≠ some x.2

-- The ids are few in a list and many in their type: the search is through the list.
instance (t : RegistryTasks) (ev : RegistryEvent) : Decidable (t.Unclaimed ev) :=
  have (p : List (UInt32 × UInt32)) : Decidable (∀ x ∈ p, t.added ev ≠ some x.2) :=
    List.decidableBAll _ p
  inferInstanceAs (Decidable (∀ p ∈ t.purges, ∀ x ∈ p, t.added ev ≠ some x.2))

lemma indexed_insert (h : t.registry.Indexed t.purges) {b : FlowBinding}
    (hfree : t.Unclaimed (.insert b)) : (t.registry.insert b).2.Indexed t.purges := by
  unfold FlowRegistry.insert
  cases hb : t.registry.map.lookup b.wireId with
  | some existing => exact h
  | none =>
    by_cases hfull : t.registry.cap ≤ t.registry.map.size
    · simp only [if_pos hfull]
      exact h
    simp only [if_neg hfull]
    have hroom := Nat.lt_of_not_le hfull
    refine h.add hb hroom fun p hp x hx heq => hfree p hp x hx ?_
    rw [added, if_pos ⟨hb, hroom⟩, heq]

lemma room_of_allocFor {r : FlowRegistry} {w : Wire} {ids ids' : FlowIds} {id : UInt32}
    (h : r.allocFor w ids = (some id, ids')) : r.map.size < r.cap := by
  unfold FlowRegistry.allocFor at h
  split at h
  · cases h
  · rename_i hfull
    exact Nat.lt_of_not_le hfull

lemma indexed_insertNewFor (h : t.registry.Indexed t.purges) {session : UInt32}
    {target : TargetAddr} (hfree : t.Unclaimed (.insertNewFor session target)) :
    (t.registry.insertNewFor t.wire t.ids session target).2.1.Indexed t.purges := by
  unfold FlowRegistry.insertNewFor
  cases hget : t.registry.allocFor t.wire t.ids with
  | mk got ids =>
    cases got with
    | none => exact h
    | some id =>
      dsimp only
      cases hb : t.registry.map.lookup id with
      | some existing => exact h
      | none =>
        refine h.add hb (room_of_allocFor hget) fun p hp x hx heq => hfree p hp x hx ?_
        simp only [added, hget, Option.filter_some, hb, Option.isNone_none, if_true, heq]
        rfl

lemma step_indexed (h : t.registry.Indexed t.purges) (ev : RegistryEvent)
    (hfree : t.Unclaimed ev) :
    (∀ c ∈ t.closed ev, c.2.session = c.1) ∧ (t.next ev).registry.Indexed (t.next ev).purges := by
  cases ev with
  | insert b => exact ⟨forall_mem_nil _, indexed_insert h hfree⟩
  | insertNewFor session target => exact ⟨forall_mem_nil _, indexed_insertNewFor h hfree⟩
  | remove wireId => exact ⟨forall_mem_nil _, h.remove wireId⟩
  | removeSession session =>
    refine ⟨forall_mem_nil _, (h.takeSession session).regroup ?_⟩
    simp only [next]
    cases (t.registry.takeSession session).1 <;> simp
  | removeSessions sessions => exact ⟨forall_mem_nil _, h.takeSessions sessions⟩
  | finish i =>
    have hheld : ∀ x ∈ t.purges[i]?.getD [], ∃ p ∈ t.purges, x ∈ p := by
      intro x hx
      generalize hp : t.purges[i]? = v at hx ⊢
      cases v with
      | none =>
        cases hx
      | some p =>
        exact ⟨p, mem_of_getElem? hp, hx⟩
    obtain ⟨hindexed, hgone, hclosed⟩ := h.purge hheld
    exact ⟨hclosed, hindexed.forget fun x hx => hgone x.2 (.inr (mem_map_of_mem hx))⟩
  | clear => exact ⟨forall_mem_nil _, FlowRegistry.indexed_clear⟩
  | lookUnsolicited _ _ _ | allocUnsolicited _ =>
    refine ⟨forall_mem_nil _, ?_⟩
    simp only [next]
    split <;> exact h

/-- In every run in which no id is added while a purge in progress holds it, a purge closes bindings
of its own sessions only, and the indexes agree with the map whenever no purge is in progress. -/
theorem registry_indexes_exact (wire : Wire) (serverOwned : Bool) (cap : Nat)
    (es : List RegistryEvent)
    (hfree : Along RegistryTasks.next Unclaimed (new wire serverOwned cap) es) :
    Along RegistryTasks.next (fun t ev => ∀ c ∈ t.closed ev, c.2.session = c.1)
        (new wire serverOwned cap) es ∧
      ((after RegistryTasks.next (new wire serverOwned cap) es).purges = [] →
        (after RegistryTasks.next (new wire serverOwned cap) es).registry.Exact) := by
  have hnew : (new wire serverOwned cap).registry.Indexed (new wire serverOwned cap).purges :=
    FlowRegistry.indexed_clear (r := .new cap)
  have hstep : ∀ (t : RegistryTasks) ev, t.registry.Indexed t.purges → t.Unclaimed ev →
      (∀ c ∈ t.closed ev, c.2.session = c.1) ∧
        (t.next ev).registry.Indexed (t.next ev).purges :=
    fun _ ev h hf => step_indexed h ev hf
  refine ⟨Along.of_invariant hstep hnew hfree, fun hidle => ?_⟩
  have hindexed := after_of_invariant (fun t ev h hf => (hstep t ev h hf).2) hnew hfree
  rw [hidle] at hindexed
  exact hindexed.exact

/-- The open of a flow by the peer. -/
def opened (wireId session : UInt32) : RegistryEvent :=
  .insert (.new wireId session (.ip (.v4 (.new 8 8 8 8) 53)))

theorem registry_indexes_exact_purge :
    let es := [opened 2 7, opened 4 8, .removeSession 7, opened 6 7, .remove 4, .finish 0]
    Along RegistryTasks.next Unclaimed (new .rev2 true 4) es ∧
      (after RegistryTasks.next (new .rev2 true 4) es).registry.Exact :=
  ⟨by decide +kernel, (registry_indexes_exact .rev2 true 4 _ (by decide +kernel)).2 rfl⟩

/-- A purge of session 7 has taken flow 2 from the index when the flow is closed and its id is opened
again for session 8: the purge then removes the flow of session 8, and the index keeps its id. -/
theorem purge_closes_other_session :
    let es := [opened 2 7, .removeSession 7, .remove 2, opened 2 8, .finish 0]
    (∃ c ∈ (after RegistryTasks.next (new .rev2 true 4) (es.take 4)).closed (.finish 0),
        c.1 = 7 ∧ c.2.session = 8) ∧
      (after RegistryTasks.next (new .rev2 true 4) es).purges = [] ∧
      ¬ (after RegistryTasks.next (new .rev2 true 4) es).registry.Exact := by
  intro es
  have hlisted : 2 ∈ (after RegistryTasks.next (new .rev2 true 4) es).registry.listed 8 := by
    decide +kernel
  have hnone : (after RegistryTasks.next (new .rev2 true 4) es).registry.map.lookup 2 = none := by
    decide +kernel
  refine ⟨by decide +kernel, by decide +kernel, fun hexact => ?_⟩
  obtain ⟨b, hb, -⟩ := (hexact.listed_iff 8 2).mp hlisted
  rw [hnone] at hb
  cases hb

end RegistryTasks

end MyQuic2
