import Mathlib.Data.List.Nodup
import MyQuic2.Core.Run
import MyQuic2.Mqp.Wire

/-!
# Flow bindings

Both ends keep a binding per open flow: the id on the wire, the session, the
destination, and what was learned about the source of replies. The reverse table
of a session answers which flow a reply belongs to; closed bindings are all that it
ever drops on its own.
-/

namespace MyQuic2

open List

def maxFlowsPerSession : Nat := 64

/-- Flows of one connection. -/
def maxFlowsPerConn : Nat := 4096

/-- Binding frames a rev3 sender repeats. -/
def r3ContextRepeats : UInt8 := 2

inductive FlowState where
  | opening
  | opened
  | closed
  deriving DecidableEq

structure FlowBinding where
  wireId : UInt32
  session : UInt32
  target : TargetAddr
  state : FlowState
  /-- Binding frames still owed to the peer, on rev3. -/
  contextLeft : UInt8
  replySrc : Option SocketAddr
  replySrcAcked : Bool
  resolved : List SocketAddr

namespace FlowBinding

variable (b : FlowBinding) (src : SocketAddr)

def new (wireId session : UInt32) (target : TargetAddr) : FlowBinding where
  wireId := wireId
  session := session
  target := target
  state := .opening
  contextLeft := r3ContextRepeats
  replySrc := none
  replySrcAcked := false
  resolved := []

/-- A closed binding is never opened again. -/
def markOpen : FlowBinding :=
  if b.state = .opening then { b with state := .opened } else b

def markClosed : FlowBinding := { b with state := .closed }

/-- Learn a reply source; the peer has not confirmed it. -/
def setReplySrc : FlowBinding :=
  { b with replySrc := some src, replySrcAcked := false }

def markReplySrcAcked : FlowBinding := { b with replySrcAcked := true }

def setResolved (addrs : List SocketAddr) : FlowBinding :=
  { b with resolved := addrs }

def resolvedFirst : Option SocketAddr := b.resolved.head?

def resolvedContains (ip : IpAddr) : Bool := b.resolved.any fun a => a.ip = ip

/-- The binding is about the host of a source, whatever its port. -/
def reaches : Bool :=
  match b.target with
  | .ip a => a.ip = src.ip
  | .domain _ _ => b.resolvedContains src.ip

/-- The source to show to the application: the learned one, else the target. -/
def replyDst : Option SocketAddr := b.replySrc <|> b.target.socketAddr

end FlowBinding

/-- How a reply source relates to the flows of its session. -/
inductive SourceMatch where
  | exact (b : FlowBinding)
  | rebind (b : FlowBinding)

namespace SourceMatch

def binding : SourceMatch → FlowBinding
  | exact b => b
  | rebind b => b

end SourceMatch

/-- The slots of a session's reverse table. -/
abbrev SessionFlows := List (Option FlowBinding)

namespace SessionFlows

variable (t : SessionFlows)

/-- The bindings of the occupied slots. -/
def live : List FlowBinding := t.filterMap id

def empty : SessionFlows := List.replicate maxFlowsPerSession none

/-- A slot that an insert may take. -/
def reclaimable : Option FlowBinding → Bool
  | none => true
  | some b => b.state = .closed

/-- Every slot holds a binding that is not closed. -/
def isFull : Bool := !t.any reclaimable

def findId (wireId : UInt32) : Option FlowBinding :=
  t.live.find? fun b => b.wireId = wireId

/-- Put a binding into the first slot that is free or holds a closed one. -/
def place (b : FlowBinding) : SessionFlows → Option SessionFlows
  | [] => none
  | slot :: rest =>
    if reclaimable slot then some (some b :: rest) else (place b rest).map (slot :: ·)

/-- Insert a binding; an id that is there already counts as inserted. -/
def insert (b : FlowBinding) : Option SessionFlows :=
  if (t.findId b.wireId).isSome then some t else place b t

/-- Change the binding of an id, which all tables share. -/
def modify (wireId : UInt32) (f : FlowBinding → FlowBinding) : SessionFlows :=
  t.map fun slot => slot.map fun b => if b.wireId = wireId then f b else b

/-- Empty the first slot of an id. -/
def remove (wireId : UInt32) : SessionFlows → SessionFlows
  | [] => []
  | slot :: rest =>
    if slot.any fun b => b.wireId = wireId then none :: rest else slot :: remove wireId rest

/-- The scan of `matchSource`, with the first candidates of the two weaker classes. -/
def matchLoop (src : SocketAddr) :
    List FlowBinding → Option FlowBinding → Option FlowBinding → Option SourceMatch
  | [], some b, _ => some (.exact b)
  | [], none, rebind => rebind.map .rebind
  | b :: bs, exact, rebind =>
    if b.replySrc = some src then
      -- A learned source is the strongest match, once the peer is sure to know it.
      if b.replySrcAcked || b.target = .ip src then some (.exact b)
      else matchLoop src bs exact (rebind <|> some b)
    else
      matchLoop src bs (if exact.isNone && b.target = .ip src then some b else exact)
        (if rebind.isNone && b.reaches src then some b else rebind)

/-- Classify a reply source. -/
def matchSource (src : SocketAddr) : Option SourceMatch :=
  matchLoop src t.live none none

end SessionFlows

/-- Ids an endpoint can hand out. -/
def maxLocalFlowId : UInt32 := 0x7FFFFFFF

/-- The wire id of an endpoint's own counter, with the owner in the lowest bit. -/
def makeWireId (localId : UInt32) (serverOwned : Bool) : Option UInt32 :=
  if localId = 0 || maxLocalFlowId < localId then none
  else some ((localId <<< 1) ||| if serverOwned then 1 else 0)

/-- An endpoint's counter of ids. -/
structure FlowIds where
  next : UInt32
  serverOwned : Bool

namespace FlowIds

def new (serverOwned : Bool) : FlowIds := ⟨0, serverOwned⟩

/-- Hand out the next id. Ids are never handed out again. -/
def alloc (ids : FlowIds) : Option UInt32 × FlowIds :=
  if maxLocalFlowId ≤ ids.next then (none, ids)
  else (makeWireId (ids.next + 1) ids.serverOwned, { ids with next := ids.next + 1 })

/-- Hand out the next id that the wire can carry; on rev3 one that it cannot is lost. -/
def allocWireId (w : Wire) (ids : FlowIds) : Option UInt32 × FlowIds :=
  match ids.alloc with
  | (none, ids) => (none, ids)
  | (some id, ids) =>
    (match w with
      | .rev2 => some id
      | .rev3 => (Wire.fidFor id).map fun _ => id, ids)

end FlowIds

namespace FlowBinding

variable (b : FlowBinding)

@[simp] lemma wireId_markOpen : b.markOpen.wireId = b.wireId := by
  unfold markOpen
  split <;> rfl

@[simp] lemma session_markOpen : b.markOpen.session = b.session := by
  unfold markOpen
  split <;> rfl

@[simp] lemma replyDst_markOpen : b.markOpen.replyDst = b.replyDst := by
  unfold markOpen
  split <;> rfl

@[simp] lemma replyDst_setReplySrc (src : SocketAddr) :
    (b.setReplySrc src).replyDst = some src := rfl

lemma markOpen_setReplySrc (src : SocketAddr) :
    (b.setReplySrc src).markOpen = b.markOpen.setReplySrc src := by
  by_cases h : b.state = .opening
  · simp [markOpen, setReplySrc, h]
  · simp [markOpen, setReplySrc, h]

/-- A flow that learned a source answers from it. -/
lemma replyDst_of_replySrc {b : FlowBinding} {src : SocketAddr} (h : b.replySrc = some src) :
    b.replyDst = some src := by
  rw [replyDst, h]
  rfl

end FlowBinding

namespace SessionFlows

lemma live_modify (t : SessionFlows) (wireId : UInt32) (f : FlowBinding → FlowBinding) :
    (t.modify wireId f).live = t.live.map fun b => if b.wireId = wireId then f b else b := by
  induction t with
  | nil => rfl
  | cons slot rest ih =>
    cases slot with
    | none => exact ih
    | some b => exact congrArg _ ih

def answers (t : SessionFlows) : List (UInt32 × Option SocketAddr) :=
  t.live.map fun b => (b.wireId, b.replyDst)

/-- One flow answers from a new source. -/
def setAnswer (wireId : UInt32) (src : SocketAddr) (l : List (UInt32 × Option SocketAddr)) :
    List (UInt32 × Option SocketAddr) :=
  l.map fun p => if p.1 = wireId then (p.1, some src) else p

variable {b : FlowBinding} {t t' : SessionFlows} {src : SocketAddr}

lemma mem_answers (h : b ∈ t.live) : (b.wireId, b.replyDst) ∈ t.answers :=
  mem_map_of_mem h

/-- A change that neither touches the id nor the learned source. -/
lemma answers_modify (t : SessionFlows) (wireId : UInt32) {f : FlowBinding → FlowBinding}
    (hid : ∀ b, (f b).wireId = b.wireId) (hdst : ∀ b, (f b).replyDst = b.replyDst) :
    (t.modify wireId f).answers = t.answers := by
  rw [answers, live_modify, map_map]
  apply map_congr_left
  intro b _
  rw [Function.comp_apply]
  split
  · rw [hid, hdst]
  · rfl

lemma answers_setReplySrc (t : SessionFlows) (wireId : UInt32) (src : SocketAddr) :
    (t.modify wireId (·.setReplySrc src)).answers = setAnswer wireId src t.answers := by
  rw [answers, live_modify, map_map, setAnswer, answers, map_map]
  apply map_congr_left
  intro b _
  simp only [Function.comp_apply]
  split <;> rfl

/-- A source that is known already changes nothing. -/
lemma setAnswer_eq_self {wireId : UInt32} {l : List (UInt32 × Option SocketAddr)}
    (hnodup : (l.map Prod.fst).Nodup) (h : (wireId, some src) ∈ l) :
    setAnswer wireId src l = l := by
  conv_rhs => rw [← map_id l]
  apply map_congr_left
  intro p hp
  split
  · rename_i hid
    have heq := inj_on_of_nodup_map hnodup hp h hid
    rw [heq]
    rfl
  · rfl

/-- A placed binding takes a free slot or that of a closed one; the others stay. -/
lemma live_of_place (h : place b t = some t') :
    ∃ before behind removed, t.live = before ++ removed ++ behind ∧
      t'.live = before ++ b :: behind ∧ removed.length ≤ 1 := by
  induction t generalizing t' with
  | nil => simp [place] at h
  | cons slot rest ih =>
    rw [place] at h
    by_cases hs : reclaimable slot = true
    · rw [if_pos hs, Option.some.injEq] at h
      subst h
      refine ⟨[], live rest, slot.toList, ?_, rfl, ?_⟩
      · cases slot <;> rfl
      · cases slot <;> simp
    rw [if_neg hs, Option.map_eq_some_iff] at h
    obtain ⟨rest', hrest, rfl⟩ := h
    obtain ⟨before, behind, removed, ht, ht', hlen⟩ := ih hrest
    refine ⟨slot.toList ++ before, behind, removed, ?_, ?_, hlen⟩
    · cases slot with
      | none => exact ht
      | some c => exact congrArg (c :: ·) ht
    · cases slot with
      | none => exact ht'
      | some c => exact congrArg (c :: ·) ht'

/-- A binding with a new id is inserted beside bindings that were there. -/
lemma insert_new (h : t.insert b = some t') (hnew : ∀ c ∈ t.live, c.wireId ≠ b.wireId) :
    b ∈ t'.live ∧ (∀ c ∈ t'.live, c = b ∨ c ∈ t.live) ∧
      ((t.answers.map Prod.fst).Nodup → (t'.answers.map Prod.fst).Nodup) := by
  have hfind : t.findId b.wireId = none := by
    rw [findId, find?_eq_none]
    intro c hc
    simpa using hnew c hc
  rw [insert, hfind] at h
  obtain ⟨before, behind, removed, ht, ht', -⟩ := live_of_place h
  simp only [answers, ht, ht', map_map]
  refine ⟨by simp, ?_, ?_⟩
  · intro c hc
    simp only [mem_append, mem_cons] at hc ⊢
    tauto
  intro hnodup
  have hsub : (before ++ behind).Sublist (before ++ removed ++ behind) := by
    rw [append_assoc]
    exact Sublist.append_left (sublist_append_right removed behind) before
  have hkeep := (hsub.map _).nodup hnodup
  rw [(perm_middle.map _).nodup_iff, map_cons, nodup_cons]
  refine ⟨?_, hkeep⟩
  intro hin
  obtain ⟨c, hc, hid⟩ := mem_map.mp hin
  exact hnew c (ht ▸ hsub.subset hc) hid

/-- What a match is about. -/
structure Matches (t : SessionFlows) (src : SocketAddr) (m : SourceMatch) : Prop where
  mem : m.binding ∈ t.live
  exact_of : ∀ b, m = .exact b → b.replySrc = some src ∨ b.target = .ip src
  /-- Any other match has learned the source or is about its host. -/
  rebind_of : ∀ b, m = .rebind b → b.replySrc = some src ∨ b.reaches src = true

/-- One pass over the table for each class of match, the stronger class first. -/
def matchPasses (src : SocketAddr) (bs : List FlowBinding) : Option SourceMatch :=
  let sure := bs.find? fun b => b.replySrc = some src && (b.replySrcAcked || b.target = .ip src)
  let target := bs.find? fun b => b.replySrc ≠ some src && b.target = .ip src
  let host := bs.find? fun b => b.replySrc = some src || b.reaches src
  ((sure.or target).map .exact).or (host.map .rebind)

/-- The scan with its candidates is the three passes, where a candidate comes before its class. -/
lemma matchLoop_eq (bs : List FlowBinding) (exact rebind : Option FlowBinding) :
    matchLoop src bs exact rebind =
      (((bs.find? fun b => b.replySrc = some src && (b.replySrcAcked || b.target = .ip src)).or
        (exact.or (bs.find? fun b => b.replySrc ≠ some src && b.target = .ip src))).map .exact).or
      ((rebind.or (bs.find? fun b => b.replySrc = some src || b.reaches src)).map .rebind) := by
  induction bs generalizing exact rebind with
  | nil => cases exact <;> simp [matchLoop]
  | cons b bs ih =>
    rw [matchLoop]
    by_cases hlearned : b.replySrc = some src
    · by_cases hsure : (b.replySrcAcked || decide (b.target = .ip src)) = true
      · simp [hlearned, hsure]
      · cases rebind <;> simp [hlearned, hsure, ih]
    · by_cases htarget : b.target = .ip src <;> by_cases hhost : b.reaches src = true <;>
        cases exact <;> cases rebind <;> simp [hlearned, htarget, hhost, ih]

lemma matchSource_eq (t : SessionFlows) (src : SocketAddr) :
    t.matchSource src = matchPasses src t.live := by
  simp [matchSource, matchLoop_eq, matchPasses]

lemma matchSource_spec {m : SourceMatch} (h : t.matchSource src = some m) : Matches t src m := by
  rw [matchSource_eq, matchPasses] at h
  rcases Option.or_eq_some_iff.mp h with h | ⟨-, h⟩
  · obtain ⟨b, hb, rfl⟩ := Option.map_eq_some_iff.mp h
    rcases Option.or_eq_some_iff.mp hb with hb | ⟨-, hb⟩
    all_goals
      have hsrc := find?_some hb
      simp only [Bool.and_eq_true, decide_eq_true_eq] at hsrc
    · exact ⟨mem_of_find?_eq_some hb, fun c hc => by cases hc; exact .inl hsrc.1, nofun⟩
    · exact ⟨mem_of_find?_eq_some hb, fun c hc => by cases hc; exact .inr hsrc.2, nofun⟩
  · obtain ⟨b, hb, rfl⟩ := Option.map_eq_some_iff.mp h
    have hsrc := find?_some hb
    simp only [Bool.or_eq_true, decide_eq_true_eq] at hsrc
    exact ⟨mem_of_find?_eq_some hb, nofun, fun c hc => by cases hc; exact hsrc⟩

lemma mem_live : b ∈ t.live ↔ some b ∈ t := by
  rw [live, mem_filterMap]
  exact ⟨fun ⟨slot, hslot, h⟩ => h ▸ hslot, fun h => ⟨some b, h, rfl⟩⟩

lemma live_empty : SessionFlows.live .empty = [] := rfl

lemma mem_live_of_insert {c : FlowBinding} (h : t.insert b = some t') (hc : c ∈ t'.live) :
    c = b ∨ c ∈ t.live := by
  unfold insert at h
  split at h
  · cases h
    exact .inr hc
  obtain ⟨before, behind, removed, hlive, hlive', -⟩ := live_of_place h
  rw [hlive', mem_append, mem_cons] at hc
  rw [hlive, mem_append, mem_append]
  rcases hc with hc | rfl | hc
  · exact .inr (.inl (.inl hc))
  · exact .inl rfl
  · exact .inr (.inr hc)

lemma mem_live_of_remove {wireId : UInt32} {c : FlowBinding} (hc : c ∈ (t.remove wireId).live) :
    c ∈ t.live := by
  rw [mem_live] at hc ⊢
  induction t with
  | nil => exact hc
  | cons slot rest ih =>
    unfold remove at hc
    split at hc
    · rcases mem_cons.mp hc with hslot | hc
      · cases hslot
      · exact mem_cons_of_mem _ hc
    rcases mem_cons.mp hc with hslot | hc
    · exact hslot ▸ mem_cons_self
    · exact mem_cons_of_mem _ (ih hc)

end SessionFlows

/-- The id, the session and the target of a flow. -/
abbrev FlowKey := UInt32 × UInt32 × TargetAddr

namespace FlowBinding

variable (b : FlowBinding)

/-- What stays of a binding. -/
def key : FlowKey := (b.wireId, b.session, b.target)

@[simp] lemma key_markOpen : b.markOpen.key = b.key := by
  unfold markOpen
  split <;> rfl

end FlowBinding

/-- What happens to a reverse table. -/
inductive TableEvent where
  | insert (b : FlowBinding)
  | remove (wireId : UInt32)
  /-- A binding changes, for every table that shares it. Its id stays. -/
  | change (wireId : UInt32) (f : FlowBinding → FlowBinding)

namespace SessionFlows

variable {t t' : SessionFlows} {b : FlowBinding}

def next (t : SessionFlows) : TableEvent → SessionFlows
  | .insert b => (t.insert b).getD t
  | .remove wireId => t.remove wireId
  | .change wireId f => t.modify wireId fun b => { f b with wireId := b.wireId }

/-- Every slot holds a binding that is not closed. -/
def AllLive (t : SessionFlows) : Prop := ∀ slot ∈ t, ∃ c, slot = some c ∧ c.state ≠ .closed

lemma place_eq_none_iff : place b t = none ↔ t.AllLive := by
  induction t with
  | nil => simp [place, AllLive]
  | cons slot rest ih =>
    have hslot : reclaimable slot = false ↔ ∃ c, slot = some c ∧ c.state ≠ .closed := by
      cases slot <;> simp [reclaimable]
    rw [AllLive, forall_mem_cons, ← hslot, ← AllLive, ← ih, place]
    cases reclaimable slot <;> simp

lemma length_place (h : place b t = some t') : t'.length = t.length := by
  induction t generalizing t' with
  | nil => cases h
  | cons slot rest ih =>
    rw [place] at h
    split at h
    · cases h
      rfl
    · obtain ⟨rest', hrest, rfl⟩ := Option.map_eq_some_iff.mp h
      exact congrArg (· + 1) (ih hrest)

lemma mem_live_of_place {c : FlowBinding} (h : place b t = some t') (hc : c ∈ t.live)
    (hopen : c.state ≠ .closed) : c ∈ t'.live := by
  rw [mem_live] at hc ⊢
  induction t generalizing t' with
  | nil => cases h
  | cons slot rest ih =>
    rw [place] at h
    split at h
    · rename_i hslot
      cases h
      rcases mem_cons.mp hc with rfl | hc
      · exact absurd (of_decide_eq_true hslot) hopen
      · exact mem_cons_of_mem _ hc
    · obtain ⟨rest', hrest, rfl⟩ := Option.map_eq_some_iff.mp h
      rcases mem_cons.mp hc with rfl | hc
      · exact mem_cons_self
      · exact mem_cons_of_mem _ (ih hrest hc)

lemma live_remove_sublist (wireId : UInt32) :
    (remove wireId t).live.Sublist t.live ∧ (remove wireId t).length = t.length := by
  induction t with
  | nil => exact ⟨.refl _, rfl⟩
  | cons slot rest ih =>
    rw [remove]
    split
    · exact ⟨(sublist_cons_self slot rest).filterMap id, rfl⟩
    refine ⟨?_, by simp [ih.2]⟩
    cases slot with
    | none => exact ih.1
    | some c => exact ih.1.cons_cons c

/-- The ids of a table are different, and it has its 64 slots. -/
structure Tabled (t : SessionFlows) : Prop where
  length : t.length = maxFlowsPerSession
  ids : (t.live.map (·.wireId)).Nodup

lemma tabled_empty : Tabled .empty := ⟨length_replicate, by simp [live_empty]⟩

lemma Tabled.insert (h : t.Tabled) (hins : t.insert b = some t') : t'.Tabled := by
  have hnew : (t.findId b.wireId).isSome = true ∨ ∀ c ∈ t.live, c.wireId ≠ b.wireId := by
    rw [findId, find?_isSome]
    by_cases hc : ∃ c ∈ t.live, c.wireId = b.wireId
    · obtain ⟨c, hc, hid⟩ := hc
      exact .inl ⟨c, hc, by simpa using hid⟩
    · exact .inr fun c hc' hid => hc ⟨c, hc', hid⟩
  rcases hnew with hold | hnew
  · rw [SessionFlows.insert, if_pos hold] at hins
    cases hins
    exact h
  have hids := (insert_new hins hnew).2.2
  simp only [answers, map_map] at hids
  refine ⟨?_, hids h.ids⟩
  have hfind : t.findId b.wireId = none := by
    simpa [findId] using hnew
  rw [SessionFlows.insert, hfind] at hins
  exact (length_place hins).trans h.length

lemma Tabled.next (h : t.Tabled) (ev : TableEvent) : (t.next ev).Tabled := by
  cases ev with
  | insert b =>
    change Tabled ((t.insert b).getD t)
    cases hins : t.insert b with
    | none => exact h
    | some t' => exact h.insert hins
  | remove wireId =>
    obtain ⟨hsub, hlen⟩ := live_remove_sublist wireId
    exact ⟨hlen.trans h.length, h.ids.sublist (hsub.map _)⟩
  | change wireId f =>
    refine ⟨by simp [SessionFlows.next, modify, h.length], ?_⟩
    have hmap : ((t.next (.change wireId f)).live.map (·.wireId)) = t.live.map (·.wireId) := by
      rw [SessionFlows.next, live_modify, map_map]
      refine map_congr_left fun c _ => ?_
      simp only [Function.comp_apply]
      split <;> rfl
    rw [hmap]
    exact h.ids

/-- What a table promises in every state. -/
structure Exact (t : SessionFlows) : Prop extends Tabled t where
  /-- An insert of a new id is refused just when no slot is free or holds a closed binding. -/
  refuses : ∀ b, t.insert b = none ↔ t.findId b.wireId = none ∧ t.AllLive
  keeps : ∀ b t', t.insert b = some t' → ∀ c ∈ t.live, c.state ≠ .closed → c ∈ t'.live

lemma Tabled.exact (h : t.Tabled) : t.Exact where
  toTabled := h
  refuses b := by
    rw [SessionFlows.insert]
    cases hfind : t.findId b.wireId <;> simp [place_eq_none_iff]
  keeps b t' hins c hc hopen := by
    rw [SessionFlows.insert] at hins
    split at hins
    · cases hins
      exact hc
    · exact mem_live_of_place hins hc hopen

/-- For every content and source the scan gives what the three passes give; and over any inserts,
removals and changes of the bindings the table holds an id once, refuses an insert of a new id
only while every slot is live, and gives up no live binding for another. -/
theorem reverse_table_exact :
    (∀ (t : SessionFlows) src, t.matchSource src = matchPasses src t.live) ∧
      ∀ es, Exact (after next .empty es) :=
  ⟨matchSource_eq, fun es => (after_of_kept (fun _ ev h => h.next ev) tabled_empty es).exact⟩

def fullRun : List TableEvent :=
  (List.range maxFlowsPerSession).map fun i =>
    .insert (.new (UInt32.ofNat (2 * i + 2)) 7 (.domain "a" 53))

/-- An id that is there counts as inserted, also while every slot is live. -/
theorem full_table_takes_known_id :
    SessionFlows.isFull (after next .empty fullRun) = true ∧
      (SessionFlows.insert (after next .empty fullRun)
        (.new 2 7 (.domain "a" 53))).isSome = true := by
  decide +kernel

end SessionFlows

end MyQuic2
