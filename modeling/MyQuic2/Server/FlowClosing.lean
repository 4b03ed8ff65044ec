import MyQuic2.Server.FlowTables
import MyQuic2.Server.ReaderInvariant

/-!
# Flows and sessions that end

Every flow of the registry has one reverse table, that of its session. The steps
that close flows take them out of the registry; a table that keeps some of them
belongs to a session that is gone, or to one whose reader has ended.
-/

namespace MyQuic2

open List Function Option FlowRegistry

namespace FlowTables

/-- An entry of the registry has an unclosed binding of its id and session, which is in one reverse
table, that of the session. -/
structure Bound (t : FlowTables) (wireId : UInt32) (b : FlowBinding) : Prop where
  made : t.ref wireId < t.allocated
  wireId_eq : (t.heap (t.ref wireId)).wireId = wireId
  session_eq : (t.heap (t.ref wireId)).session = b.session
  unclosed : (t.heap (t.ref wireId)).state ≠ .closed
  home : ∃ h, t.sessions.lookup b.session = some h ∧ t.ref wireId ∈ (t.table h).refs
  only : ∀ h, t.ref wireId ∈ (t.table h).refs → t.sessions.lookup b.session = some h

/-- The reverse table of a session has bindings of its own, with those that are not closed
registered, and none closed while the reader runs. -/
structure Serves (t : FlowTables) (s : UInt32) (h : Nat) : Prop where
  made : h < t.readers
  owner_eq : t.owner h = s
  unreaped : h ∉ t.reaped
  own : ∀ b ∈ (t.table h).refs, (t.heap b).session = s
  registered : ∀ b ∈ (t.table h).refs, (t.heap b).state ≠ .closed → t.Registers (t.heap b).wireId b
  unclosed : t.finished h = false → ∀ b ∈ (t.table h).refs, (t.heap b).state ≠ .closed

structure Kept (t : FlowTables) : Prop where
  indexed : t.registry.Indexed []
  bound : ∀ wireId b, t.registry.map.lookup wireId = some b → t.Bound wireId b
  serves : ∀ s h, t.sessions.lookup s = some h → t.Serves s h
  once : ∀ h, (t.table h).refs.Nodup
  made : ∀ h, ∀ b ∈ (t.table h).refs, b < t.allocated
  reaped : ∀ h ∈ t.reaped, h < t.readers

variable {t : FlowTables}

lemma new_kept (wire : Wire) (cap : Nat) : (new wire cap).Kept where
  indexed := indexed_clear (r := .new cap)
  bound := nofun
  serves := nofun
  once _ := nodup_nil
  made _ _ hb := absurd hb not_mem_nil
  reaped _ hh := absurd hh not_mem_nil

lemma Kept.agrees (hk : t.Kept) : t.Agrees where
  same s h hs b := by
    have hserves := hk.serves s h hs
    constructor
    · rintro ⟨hmem, hstate⟩
      exact ⟨_, hserves.registered b hmem hstate, hserves.own b hmem⟩
    · rintro ⟨wireId, ⟨hsome, rfl⟩, hsession⟩
      obtain ⟨b, hb⟩ := isSome_iff_exists.mp hsome
      have hbound := hk.bound wireId b hb
      obtain ⟨h', hs', hmem⟩ := hbound.home
      rw [← hbound.session_eq, hsession, hs, some.injEq] at hs'
      rw [hs']
      exact ⟨hmem, hbound.unclosed⟩
  unclosed := by
    rintro wireId _ ⟨hsome, rfl⟩
    obtain ⟨b, hb⟩ := isSome_iff_exists.mp hsome
    exact (hk.bound wireId b hb).unclosed
  live := by
    rintro wireId _ ⟨hsome, rfl⟩
    obtain ⟨b, hb⟩ := isSome_iff_exists.mp hsome
    have hbound := hk.bound wireId b hb
    obtain ⟨h, hs, -⟩ := hbound.home
    exact ⟨h, by rw [hbound.session_eq]; exact hs⟩

variable {b : Nat} {refs : List Nat} {wireId : UInt32}

lemma wireId_close : ((t.close refs).heap b).wireId = (t.heap b).wireId := by
  unfold close
  dsimp only
  split <;> rfl

lemma session_close : ((t.close refs).heap b).session = (t.heap b).session := by
  unfold close
  dsimp only
  split <;> rfl

lemma state_close :
    ((t.close refs).heap b).state ≠ .closed ↔ b ∉ refs ∧ (t.heap b).state ≠ .closed := by
  unfold close
  dsimp only
  split
  · rename_i hmem
    constructor
    · intro hstate
      exact absurd rfl hstate
    · intro hboth
      exact absurd hmem hboth.1
  · next hmem => exact ⟨fun hstate => ⟨hmem, hstate⟩, And.right⟩

/-- A step that makes nothing: it closes bindings and takes some out of the registry, out of the
reverse tables and out of the sessions. -/
structure Shrinks (t : FlowTables) (refs : List Nat) (t' : FlowTables) : Prop where
  heap : t'.heap = (t.close refs).heap
  allocated : t'.allocated = t.allocated
  ref : t'.ref = t.ref
  readers : t'.readers = t.readers
  owner : t'.owner = t.owner
  finished : ∀ h, t'.finished h = false → t.finished h = false
  indexed : t'.registry.Indexed []
  lookup : ∀ wireId b, t'.registry.map.lookup wireId = some b →
    t.registry.map.lookup wireId = some b
  sessions : ∀ s h, t'.sessions.lookup s = some h → t.sessions.lookup s = some h
  listed : ∀ h, (t'.table h).refs.Sublist (t.table h).refs
  reaped : ∀ h ∈ t'.reaped, h < t.readers

/-- A step that makes nothing is fine when the flows it leaves in the registry keep their session,
their place and their state, and the sessions it leaves keep the flows they list. -/
lemma Kept.shrinks (hk : t.Kept) {refs : List Nat} {t' : FlowTables} (hs : t.Shrinks refs t')
    (hbound : ∀ wireId b, t'.registry.map.lookup wireId = some b → t.ref wireId ∉ refs ∧
      ∀ h, t.sessions.lookup b.session = some h → t'.sessions.lookup b.session = some h ∧
        (t.ref wireId ∈ (t.table h).refs → t.ref wireId ∈ (t'.table h).refs))
    (hserves : ∀ s h, t'.sessions.lookup s = some h → h ∉ t'.reaped ∧
      ∀ b ∈ (t'.table h).refs, (t.heap b).state ≠ .closed →
        (b ∉ refs → (t'.registry.map.lookup (t.heap b).wireId).isSome) ∧
        (t'.finished h = false → b ∉ refs)) : t'.Kept where
  indexed := hs.indexed
  bound wireId b hb := by
    have hold := hk.bound wireId b (hs.lookup wireId b hb)
    obtain ⟨hopen, hkeep⟩ := hbound wireId b hb
    obtain ⟨h, hlive, hmem⟩ := hold.home
    refine ⟨?_, ?_, ?_, ?_, ⟨h, ?_, ?_⟩, fun h' hmem' => ?_⟩
    · rw [hs.ref, hs.allocated]
      exact hold.made
    · rw [hs.ref, hs.heap, wireId_close]
      exact hold.wireId_eq
    · rw [hs.ref, hs.heap, session_close]
      exact hold.session_eq
    · rw [hs.ref, hs.heap, state_close]
      exact ⟨hopen, hold.unclosed⟩
    · exact (hkeep h hlive).1
    · rw [hs.ref]
      exact (hkeep h hlive).2 hmem
    · rw [hs.ref] at hmem'
      exact (hkeep h' (hold.only h' ((hs.listed h').subset hmem'))).1
  serves s h hlive := by
    have hold := hk.serves s h (hs.sessions s h hlive)
    obtain ⟨hunreaped, hlisted⟩ := hserves s h hlive
    refine ⟨?_, ?_, hunreaped, fun b hb => ?_, fun b hb hstate => ?_, fun hrun b hb => ?_⟩
    · rw [hs.readers]
      exact hold.made
    · rw [hs.owner]
      exact hold.owner_eq
    · rw [hs.heap, session_close]
      exact hold.own b ((hs.listed h).subset hb)
    · rw [hs.heap, state_close] at hstate
      rw [hs.heap, wireId_close]
      refine ⟨(hlisted b hb hstate.2).1 hstate.1, ?_⟩
      rw [hs.ref]
      exact (hold.registered b ((hs.listed h).subset hb) hstate.2).2
    · have hstate := hold.unclosed (hs.finished h hrun) b ((hs.listed h).subset hb)
      rw [hs.heap, state_close]
      exact ⟨(hlisted b hb hstate).2 hrun, hstate⟩
  once h := (hs.listed h).nodup (hk.once h)
  made h b hb := by
    rw [hs.allocated]
    exact hk.made h b ((hs.listed h).subset hb)
  reaped h hh := by
    rw [hs.readers]
    exact hs.reaped h hh

/-- A reader that ends leaves the tables as they are. -/
lemma Kept.stop (hk : t.Kept) (h : Nat) :
    Kept { t with finished := Function.update t.finished h true } := by
  have hshrinks : t.Shrinks [] { t with finished := Function.update t.finished h true } := by
    refine ⟨?_, rfl, rfl, rfl, rfl, fun h' hrun => ?_, hk.indexed, fun _ _ hb => hb,
      fun _ _ hs => hs, fun _ => .refl _, hk.reaped⟩
    · funext b
      change t.heap b = if b ∈ [] then (t.heap b).markClosed else t.heap b
      rw [if_neg not_mem_nil]
    · by_cases heq : h' = h
      · rw [heq] at hrun
        exact absurd ((update_self h true t.finished).symm.trans hrun) nofun
      · exact (update_of_ne heq true t.finished).symm.trans hrun
  refine hk.shrinks hshrinks (fun _ _ _ => ⟨not_mem_nil, fun _ hlive => ⟨hlive, id⟩⟩)
    fun s h' hlive => ⟨(hk.serves s h' hlive).unreaped, fun b hb hstate => ?_⟩
  exact ⟨fun _ => ((hk.serves s h' hlive).registered b hb hstate).1, fun _ => not_mem_nil⟩

lemma Kept.purged (hk : t.Kept) {ids : List UInt32}
    {out : List (UInt32 × FlowBinding) × FlowRegistry} (hp : t.registry.Purges ids out)
    {sessions : Map UInt32 Nat} (reaped : List Nat)
    (hsessions : ∀ s h, sessions.lookup s = some h ↔ t.sessions.lookup s = some h ∧ s ∉ ids)
    (hreaped : ∀ h ∈ reaped, h < t.readers ∧ ∀ s, sessions.lookup s ≠ some h) :
    (FlowTables.purged { t with sessions := sessions, reaped := reaped } out).Kept := by
  -- A closed binding is of one of the sessions that go.
  have hclosed : ∀ b ∈ out.1.map fun c => t.ref c.2.wireId, (t.heap b).session ∈ ids := by
    intro b hb
    obtain ⟨c, hc, rfl⟩ := mem_map.mp hb
    obtain ⟨b, hb, hids⟩ := hp.closed c hc
    rw [(hk.bound _ b hb).session_eq]
    exact hids
  refine hk.shrinks ⟨rfl, rfl, rfl, rfl, rfl, fun _ hrun => hrun, hp.indexed,
    fun wireId b hb => ((hp.kept wireId b).mp hb).1, fun s h hs => ((hsessions s h).mp hs).1,
    fun _ => .refl _, fun h hh => (hreaped h hh).1⟩ (fun wireId b hb => ?_) (fun s h hs => ?_)
  · obtain ⟨hold, hids⟩ := (hp.kept wireId b).mp hb
    refine ⟨fun hmem => ?_, fun h hlive => ⟨(hsessions _ h).mpr ⟨hlive, hids⟩, id⟩⟩
    rw [← (hk.bound wireId b hold).session_eq] at hids
    exact hids (hclosed _ hmem)
  obtain ⟨hlive, hids⟩ := (hsessions s h).mp hs
  have hserves := hk.serves s h hlive
  refine ⟨fun hh => (hreaped h hh).2 s hs, fun b hb hstate => ⟨fun _ => ?_, fun _ hmem => ?_⟩⟩
  · obtain ⟨hsome, href⟩ := hserves.registered b hb hstate
    obtain ⟨b', hb'⟩ := isSome_iff_exists.mp hsome
    have hsession := (hk.bound _ b' hb').session_eq
    rw [href, hserves.own b hb] at hsession
    exact isSome_iff_exists.mpr ⟨b', (hp.kept _ b').mpr ⟨hb', hsession ▸ hids⟩⟩
  · have hin := hclosed b hmem
    rw [hserves.own b hb] at hin
    exact hids hin

/-- The table of a session that is gone has no flow of the registry. -/
lemma Kept.markReaped (hk : t.Kept) {h : Nat} (hdead : ∀ s, t.sessions.lookup s ≠ some h)
    {reaped : List Nat} (hreaped : reaped ⊆ t.reaped) :
    Kept { t.r2MarkReapedEntryClosed h with reaped := reaped } := by
  have hempty : ∀ h', h' ≠ h → (({ t.r2MarkReapedEntryClosed h with
      reaped := reaped } : FlowTables).table h').refs = (t.table h').refs := by
    intro h' hne
    unfold r2MarkReapedEntryClosed table ReplyReader.refs
    dsimp only
    rw [update_of_ne hne]
  refine hk.shrinks ⟨rfl, rfl, rfl, rfl, rfl, fun _ hrun => hrun, hk.indexed, fun _ _ hb => hb,
    fun _ _ hs => hs, fun h' => ?_, fun h' hh => hk.reaped h' (hreaped hh)⟩
    (fun wireId b hb => ?_) (fun s h' hs => ?_)
  · by_cases heq : h' = h
    · rw [heq]
      unfold r2MarkReapedEntryClosed table ReplyReader.refs
      dsimp only
      rw [update_self]
      exact nil_sublist _
    · rw [hempty h' heq]
  · have hbound := hk.bound wireId b hb
    refine ⟨fun hmem => hdead _ (hbound.only h hmem), fun h' hlive => ⟨hlive, fun hmem => ?_⟩⟩
    rw [hempty h' fun heq => hdead _ (heq ▸ hlive)]
    exact hmem
  · have hserves := hk.serves s h' hs
    refine ⟨fun hh => hserves.unreaped (hreaped hh), fun b hb hstate => ?_⟩
    rw [hempty h' fun heq => hdead s (heq ▸ hs)] at hb
    obtain ⟨hsome, href⟩ := hserves.registered b hb hstate
    refine ⟨fun _ => hsome, fun _ hmem => ?_⟩
    obtain ⟨b', hb'⟩ := isSome_iff_exists.mp hsome
    have hbound := hk.bound _ b' hb'
    rw [← href] at hmem
    exact hdead _ (hbound.only h hmem)

/-- A session goes, with its flows in the registry and then with those its table lists. -/
lemma Kept.removeSession (hk : t.Kept) (s : UInt32) :
    (FlowTables.purged { t with sessions := t.sessions.erase s }
      (t.registry.removeSession s)).Kept := by
  rw [removeSession_eq]
  refine hk.purged (hk.indexed.removeSessions [s]) t.reaped (fun _ _ => ?_)
    fun h hh => ⟨hk.reaped h hh, fun s' hs' => ?_⟩
  · rw [Map.lookup_erase_iff, mem_singleton, and_comm]
  · exact (hk.serves s' h (Map.lookup_erase_iff.mp hs').2).unreaped hh

lemma Kept.r2CloseSession (hk : t.Kept) (sess : UInt32) : (t.r2CloseSession sess).Kept := by
  unfold FlowTables.r2CloseSession
  cases hs : t.sessions.lookup sess with
  | none => exact hk.removeSession sess
  | some h =>
    refine (hk.removeSession sess).markReaped (fun s hs' => ?_) (List.Subset.refl _)
    obtain ⟨hne, hlive⟩ := Map.lookup_erase_iff.mp hs'
    have howner := (hk.serves s h hlive).owner_eq
    rw [(hk.serves sess h hs).owner_eq] at howner
    exact hne howner.symm

lemma Kept.readerExit (hk : t.Kept) (h : Nat) : (t.readerExit h).Kept := by
  unfold FlowTables.readerExit
  split
  · rename_i hs
    refine ((hk.stop h).removeSession (t.owner h)).markReaped (fun s hs' => ?_) (List.Subset.refl _)
    obtain ⟨hne, hlive⟩ := Map.lookup_erase_iff.mp hs'
    exact hne (hk.serves s h hlive).owner_eq.symm
  · exact hk.stop h

/-- What a sweep takes out, and what it leaves. -/
lemma takeIdle_spec (sessions : Map UInt32 Nat) (idle : List UInt32) :
    (∀ x ∈ (takeIdle sessions idle).1, sessions.lookup x.1 = some x.2) ∧
      ∀ s h, (takeIdle sessions idle).2.lookup s = some h ↔
        sessions.lookup s = some h ∧ s ∉ (takeIdle sessions idle).1.map Prod.fst := by
  induction idle generalizing sessions with
  | nil => exact ⟨nofun, fun s h => ⟨fun hs => ⟨hs, not_mem_nil⟩, And.left⟩⟩
  | cons k idle ih =>
    rw [takeIdle]
    cases hk : sessions.lookup k with
    | none => exact ih sessions
    | some h =>
      obtain ⟨htaken, hleft⟩ := ih (sessions.erase k)
      refine ⟨fun x hx => ?_, fun s h' => ?_⟩
      · rcases mem_cons.mp hx with rfl | hx
        · exact hk
        · exact (Map.lookup_erase_iff.mp (htaken x hx)).2
      · rw [hleft, Map.lookup_erase_iff, map_cons, mem_cons, not_or, and_comm (a := s ≠ k),
          and_assoc]

lemma Kept.sweep (hk : t.Kept) (idle : List UInt32) : (t.sweep idle).Kept := by
  obtain ⟨htaken, hleft⟩ := takeIdle_spec t.sessions idle
  refine hk.purged (hk.indexed.removeSessions _)
    (t.reaped ++ (takeIdle t.sessions idle).1.map Prod.snd) hleft fun h hh => ?_
  rcases mem_append.mp hh with hh | hh
  · exact ⟨hk.reaped h hh, fun s hs =>
      (hk.serves s h ((hleft s h).mp hs).1).unreaped hh⟩
  obtain ⟨x, hx, rfl⟩ := mem_map.mp hh
  have hserves := hk.serves x.1 x.2 (htaken x hx)
  refine ⟨hserves.made, fun s hs => ?_⟩
  obtain ⟨hlive, hne⟩ := (hleft s x.2).mp hs
  have howner := (hk.serves s x.2 hlive).owner_eq
  rw [hserves.owner_eq] at howner
  exact hne (mem_map.mpr ⟨x, hx, howner⟩)

lemma mem_sessionR2Flows {s : UInt32} {h : Nat} :
    t.sessionR2Flows s = some h ↔ t.sessions.lookup s = some h ∧ t.finished h = false := by
  unfold sessionR2Flows
  rw [filter_eq_some_iff, Bool.not_eq_true']

lemma forget_eq {wireId : UInt32} {b : FlowBinding} (hb : t.registry.map.lookup wireId = some b) :
    t.forget wireId = { t.close [t.ref wireId] with registry := (t.registry.remove wireId).2 } := by
  unfold forget remove
  rw [hb]

lemma tables_forget : (t.forget wireId).tables = t.tables := by
  unfold forget
  split <;> rfl

lemma sessionR2Flows_forget (s : UInt32) :
    (t.forget wireId).sessionR2Flows s = t.sessionR2Flows s := by
  unfold forget
  split <;> rfl

lemma wireId_forget : ((t.forget wireId).heap b).wireId = (t.heap b).wireId := by
  unfold forget
  split
  · rfl
  · exact wireId_close

/-- A flow goes from the registry, and from the table of its session if the reader runs. -/
lemma Kept.forget (hk : t.Kept) {wireId : UInt32} {b : FlowBinding}
    (hb : t.registry.map.lookup wireId = some b) (tables : Nat → List (Option Nat))
    (hsub : ∀ h, ((tables h).filterMap id).Sublist (t.table h).refs)
    (hkept : ∀ h, ∀ c ∈ (t.table h).refs, (t.heap c).wireId ≠ wireId → c ∈ (tables h).filterMap id)
    (hgone : ∀ h, t.sessionR2Flows b.session = some h → t.ref wireId ∉ (tables h).filterMap id) :
    Kept { t.forget wireId with tables := tables } := by
  have hbound := hk.bound wireId b hb
  rw [forget_eq hb]
  refine hk.shrinks ⟨rfl, rfl, rfl, rfl, rfl, fun _ hrun => hrun, hk.indexed.remove wireId,
    fun _ _ hb' => (lookup_remove hb').2, fun _ _ hs => hs, hsub, hk.reaped⟩
    (fun id b' hb' => ?_) (fun s h hs => ?_)
  · obtain ⟨hne, hold⟩ := lookup_remove hb'
    have hid := (hk.bound id b' hold).wireId_eq
    refine ⟨fun hmem => ?_, fun h hlive => ⟨hlive, fun hmem => hkept h _ hmem ?_⟩⟩
    · rw [mem_singleton.mp hmem, hbound.wireId_eq] at hid
      exact hne hid.symm
    · rw [hid]
      exact hne
  have hserves := hk.serves s h hs
  refine ⟨hserves.unreaped, fun c hc hstate => ⟨fun hne => ?_, fun hrun hmem => ?_⟩⟩
  · obtain ⟨hsome, href⟩ := hserves.registered c ((hsub h).subset hc) hstate
    rw [lookup_remove_of_ne]
    · exact hsome
    · rintro heq
      rw [heq] at href
      exact hne (mem_singleton.mpr href.symm)
  · -- The session of the binding is the one whose table lists it.
    rw [mem_singleton.mp hmem] at hc
    have hlive := hbound.only h ((hsub h).subset hc)
    exact hgone h (mem_sessionR2Flows.mpr ⟨hlive, hrun⟩) hc

lemma Kept.r2RemoveFlow (hk : t.Kept) (wireId : UInt32) : (t.r2RemoveFlow wireId).Kept := by
  unfold FlowTables.r2RemoveFlow
  cases hb : t.registry.map.lookup wireId with
  | none => exact hk
  | some b =>
    have hbound := hk.bound wireId b hb
    dsimp only
    rw [sessionR2Flows_forget]
    cases hrun : t.sessionR2Flows b.session with
    | none =>
      have hnone := hk.forget hb t.tables (fun _ => .refl _) (fun _ _ hc _ => hc)
        fun h hh => absurd (hrun.symm.trans hh) nofun
      rw [← tables_forget] at hnone
      exact hnone
    | some h =>
      obtain ⟨hlive, hrunning⟩ := mem_sessionR2Flows.mp hrun
      have hserves := hk.serves _ h hlive
      obtain ⟨-, hsub, hkept⟩ := ((t.forget wireId).table h).without_refs wireId (t.tables h)
      rw [tables_forget]
      refine hk.forget hb _ (fun h' => ?_) (fun h' c hc hne => ?_) (fun h' hh' => ?_)
      · by_cases heq : h' = h
        · rw [heq, update_self]
          exact hsub
        · rw [update_of_ne heq]
          exact .refl _
      · by_cases heq : h' = h
        · rw [heq, update_self]
          rw [heq] at hc
          exact hkept c hc ((wireId_forget).trans_ne hne)
        · rw [update_of_ne heq]
          exact hc
      · obtain rfl : h = h' := some.inj (hrun.symm.trans hh')
        rw [update_self]
        refine ReplyReader.not_mem_without (hk.once h)
          ((wireId_forget).trans hbound.wireId_eq) fun c hc hid => ?_
        have hid : (t.heap c).wireId = wireId := (wireId_forget).symm.trans hid
        have href := (hserves.registered c hc (hserves.unclosed hrunning c hc)).2
        rw [hid] at href
        exact href.symm

end FlowTables

end MyQuic2
