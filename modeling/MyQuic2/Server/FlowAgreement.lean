import MyQuic2.Server.FlowClosing

/-!
# The two flow tables agree

A flow is installed in both tables or in none, as long as the table is the one of
the session that is there under the id. A reader that goes on after its session was
taken out has another table.
-/

namespace MyQuic2

open List Function Option ReplyReader

namespace FlowTables

variable {t : FlowTables}

lemma heap_alloc_of_lt (t : FlowTables) (b : FlowBinding) {c : Nat} (hc : c < t.allocated) :
    (t.alloc b).heap c = t.heap c :=
  update_of_ne (Nat.ne_of_lt hc) ..

lemma heap_alloc_self (t : FlowTables) (b : FlowBinding) : (t.alloc b).heap t.allocated = b :=
  update_self ..

/-- A binding that no table takes changes nothing. -/
lemma Kept.alloc (hk : t.Kept) (b : FlowBinding) : (t.alloc b).Kept where
  indexed := hk.indexed
  bound wireId b' hb' := by
    have hold := hk.bound wireId b' hb'
    have hheap := t.heap_alloc_of_lt b hold.made
    refine ⟨Nat.lt_succ_of_lt hold.made, ?_, ?_, ?_, hold.home, hold.only⟩
    · exact (congrArg FlowBinding.wireId hheap).trans hold.wireId_eq
    · exact (congrArg FlowBinding.session hheap).trans hold.session_eq
    · exact (congrArg FlowBinding.state hheap).trans_ne hold.unclosed
  serves s h hs := by
    have hold := hk.serves s h hs
    have hheap : ∀ c ∈ (t.table h).refs, (t.alloc b).heap c = t.heap c :=
      fun c hc => t.heap_alloc_of_lt b (hk.made h c hc)
    refine ⟨hold.made, hold.owner_eq, hold.unreaped, fun c hc => ?_, fun c hc hstate => ?_,
      fun hrun c hc => ?_⟩
    · rw [hheap c hc]
      exact hold.own c hc
    · rw [hheap c hc] at hstate ⊢
      exact hold.registered c hc hstate
    · rw [hheap c hc]
      exact hold.unclosed hrun c hc
  once := hk.once
  made h c hc := Nat.lt_succ_of_lt (hk.made h c hc)
  reaped := hk.reaped

/-- The next binding is listed in one reverse table, in a slot that was free or held a closed
one. -/
structure Lists (t : FlowTables) (h : Nat) (t' : FlowTables) : Prop where
  self : t.allocated ∈ (t'.table h).refs
  mem : ∀ h', ∀ c ∈ (t'.table h').refs, (c = t.allocated ∧ h' = h) ∨ c ∈ (t.table h').refs
  keep : ∀ h', ∀ c ∈ (t.table h').refs, (t.heap c).state ≠ .closed → c ∈ (t'.table h').refs
  once : ∀ h', (t'.table h').refs.Nodup

variable {h : Nat} {b : FlowBinding}

lemma Kept.lists (hk : t.Kept) {entries : List (Option Nat)} {before behind removed : List Nat}
    (hold : (t.table h).refs = before ++ removed ++ behind)
    (hnew : entries.filterMap id = before ++ t.allocated :: behind)
    (hclosed : ∀ c ∈ removed, (t.heap c).state = .closed) {t' : FlowTables}
    (htables : t'.tables = Function.update t.tables h entries) : t.Lists h t' := by
  have hself : (t'.table h).refs = before ++ t.allocated :: behind := by
    rw [← hnew]
    unfold table refs
    rw [htables, update_self]
  have hne : ∀ h', h' ≠ h → (t'.table h').refs = (t.table h').refs := by
    intro h' hne
    unfold table refs
    rw [htables, update_of_ne hne]
  refine ⟨?_, fun h' c hc => ?_, fun h' c hc hstate => ?_, fun h' => ?_⟩
  · rw [hself]
    exact mem_append_right _ mem_cons_self
  · by_cases heq : h' = h
    · rw [heq, hself, mem_append, mem_cons] at hc
      rw [heq, hold, mem_append, mem_append]
      rcases hc with hc | hc | hc
      · exact .inr (.inl (.inl hc))
      · exact .inl ⟨hc, rfl⟩
      · exact .inr (.inr hc)
    · rw [hne h' heq] at hc
      exact .inr hc
  · by_cases heq : h' = h
    · rw [heq, hold, mem_append, mem_append] at hc
      rw [heq, hself, mem_append, mem_cons]
      rcases hc with (hc | hc) | hc
      · exact .inl hc
      · exact absurd (hclosed c hc) hstate
      · exact .inr (.inr hc)
    · rw [hne h' heq]
      exact hc
  · by_cases heq : h' = h
    · have honce := hk.once h
      have hmade := hk.made h
      rw [hold] at honce hmade
      have hsub : (before ++ behind).Sublist (before ++ removed ++ behind) :=
        (sublist_append_left before removed).append_right behind
      rw [heq, hself, nodup_middle, nodup_cons]
      exact ⟨fun hmem => Nat.lt_irrefl _ (hmade _ (hsub.subset hmem)), hsub.nodup honce⟩
    · rw [hne h' heq]
      exact hk.once h'

/-- A step that puts a new binding into both tables. -/
structure Adds (t : FlowTables) (h : Nat) (b : FlowBinding) (t' : FlowTables) : Prop where
  heap : t'.heap = (t.alloc b).heap
  allocated : t'.allocated = t.allocated + 1
  registry : t'.registry = t.registry.add b
  ref : t'.ref = Function.update t.ref b.wireId t.allocated
  readers : t'.readers = t.readers
  owner : t'.owner = t.owner
  finished : t'.finished = t.finished
  sessions : t'.sessions = t.sessions
  reaped : t'.reaped = t.reaped
  lists : t.Lists h t'

section

variable {h : Nat} {b : FlowBinding} {t' : FlowTables}

lemma Adds.heap_self (ha : t.Adds h b t') : t'.heap t.allocated = b := by
  rw [ha.heap]
  exact t.heap_alloc_self b

lemma Adds.heap_of_lt (ha : t.Adds h b t') {c : Nat} (hc : c < t.allocated) :
    t'.heap c = t.heap c := by
  rw [ha.heap]
  exact t.heap_alloc_of_lt b hc

lemma Adds.ref_self (ha : t.Adds h b t') : t'.ref b.wireId = t.allocated := by
  rw [ha.ref]
  exact update_self ..

variable {wireId : UInt32}

lemma Adds.ref_of_ne (ha : t.Adds h b t') (hne : wireId ≠ b.wireId) :
    t'.ref wireId = t.ref wireId := by
  rw [ha.ref]
  exact update_of_ne hne ..

lemma Adds.lookup_self (ha : t.Adds h b t') : t'.registry.map.lookup b.wireId = some b := by
  rw [ha.registry]
  exact AList.lookup_insert _

lemma Adds.lookup_of_ne (ha : t.Adds h b t') (hne : wireId ≠ b.wireId) :
    t'.registry.map.lookup wireId = t.registry.map.lookup wireId := by
  rw [ha.registry]
  exact AList.lookup_insert_ne hne

/-- The new flow is bound in the session it was made for. -/
lemma Kept.bound_self (hk : t.Kept) (ha : t.Adds h b t')
    (hs : t.sessions.lookup b.session = some h) (hopen : b.state ≠ .closed) :
    t'.Bound b.wireId b := by
  refine ⟨?_, ?_, ?_, ?_, ⟨h, ?_, ?_⟩, fun h' hmem => ?_⟩
  · rw [ha.ref_self, ha.allocated]
    exact Nat.lt_succ_self _
  · rw [ha.ref_self, ha.heap_self]
  · rw [ha.ref_self, ha.heap_self]
  · rw [ha.ref_self, ha.heap_self]
    exact hopen
  · rw [ha.sessions]
    exact hs
  · rw [ha.ref_self]
    exact ha.lists.self
  · rw [ha.ref_self] at hmem
    rw [ha.sessions]
    rcases ha.lists.mem h' _ hmem with ⟨-, rfl⟩ | hmem
    · exact hs
    · exact absurd (hk.made h' _ hmem) (Nat.lt_irrefl _)

lemma Kept.bound_of_ne (hk : t.Kept) (ha : t.Adds h b t') {b' : FlowBinding}
    (hne : wireId ≠ b.wireId) (hb' : t.registry.map.lookup wireId = some b') :
    t'.Bound wireId b' := by
  have hold := hk.bound wireId b' hb'
  obtain ⟨h', hlive, hmem⟩ := hold.home
  refine ⟨?_, ?_, ?_, ?_, ⟨h', ?_, ?_⟩, fun h'' hmem' => ?_⟩
  · rw [ha.ref_of_ne hne, ha.allocated]
    exact Nat.lt_succ_of_lt hold.made
  · rw [ha.ref_of_ne hne, ha.heap_of_lt hold.made]
    exact hold.wireId_eq
  · rw [ha.ref_of_ne hne, ha.heap_of_lt hold.made]
    exact hold.session_eq
  · rw [ha.ref_of_ne hne, ha.heap_of_lt hold.made]
    exact hold.unclosed
  · rw [ha.sessions]
    exact hlive
  · rw [ha.ref_of_ne hne]
    exact ha.lists.keep h' _ hmem hold.unclosed
  · rw [ha.ref_of_ne hne] at hmem'
    rw [ha.sessions]
    rcases ha.lists.mem h'' _ hmem' with ⟨heq, -⟩ | hmem'
    · exact absurd hold.made (heq ▸ Nat.lt_irrefl _)
    · exact hold.only h'' hmem'

variable (hk : t.Kept) (ha : t.Adds h b t') (hs : t.sessions.lookup b.session = some h)
  (hopen : b.state ≠ .closed) (hnone : t.registry.map.lookup b.wireId = none)
include hk ha hs hopen hnone

lemma Kept.serves_adds {s : UInt32} {h' : Nat} (hs' : t.sessions.lookup s = some h') :
    t'.Serves s h' := by
  have hold := hk.serves s h' hs'
  refine ⟨?_, ?_, ?_, fun c hc => ?_, fun c hc hstate => ?_, fun hrun c hc => ?_⟩
  · rw [ha.readers]
    exact hold.made
  · rw [ha.owner]
    exact hold.owner_eq
  · rw [ha.reaped]
    exact hold.unreaped
  · rcases ha.lists.mem h' c hc with ⟨rfl, rfl⟩ | hc
    · rw [ha.heap_self]
      exact (hk.serves _ h' hs).owner_eq.symm.trans hold.owner_eq
    · rw [ha.heap_of_lt (hk.made h' c hc)]
      exact hold.own c hc
  · rcases ha.lists.mem h' c hc with ⟨rfl, rfl⟩ | hc
    · rw [ha.heap_self]
      exact ⟨isSome_iff_exists.mpr ⟨b, ha.lookup_self⟩, ha.ref_self⟩
    rw [ha.heap_of_lt (hk.made h' c hc)] at hstate ⊢
    obtain ⟨hsome, href⟩ := hold.registered c hc hstate
    have hne : (t.heap c).wireId ≠ b.wireId := by
      intro heq
      rw [heq, hnone] at hsome
      cases hsome
    exact ⟨by rw [ha.lookup_of_ne hne]; exact hsome, (ha.ref_of_ne hne).trans href⟩
  · rcases ha.lists.mem h' c hc with ⟨rfl, rfl⟩ | hc
    · rw [ha.heap_self]
      exact hopen
    rw [ha.heap_of_lt (hk.made h' c hc)]
    rw [ha.finished] at hrun
    exact hold.unclosed hrun c hc

/-- A flow with a new id goes into both tables. -/
lemma Kept.adds (hroom : t.registry.map.size < t.registry.cap) : t'.Kept where
  indexed := by
    rw [ha.registry]
    exact hk.indexed.add hnone hroom nofun
  bound wireId b' hb' := by
    by_cases hid : wireId = b.wireId
    · rw [hid, ha.lookup_self, some.injEq] at hb'
      rw [hid, ← hb']
      exact hk.bound_self ha hs hopen
    · rw [ha.lookup_of_ne hid] at hb'
      exact hk.bound_of_ne ha hid hb'
  serves s h' hs' := by
    rw [ha.sessions] at hs'
    exact hk.serves_adds ha hs hopen hnone hs'
  once := ha.lists.once
  made h' c hc := by
    rw [ha.allocated]
    rcases ha.lists.mem h' c hc with ⟨rfl, -⟩ | hc
    · exact Nat.lt_succ_self _
    · exact Nat.lt_succ_of_lt (hk.made h' c hc)
  reaped h' hh' := by
    rw [ha.reaped] at hh'
    rw [ha.readers]
    exact hk.reaped h' hh'

end

lemma Kept.wireId_ne (hk : t.Kept) {s wireId : UInt32} (hs : t.sessions.lookup s = some h)
    (hrun : t.finished h = false) (hnone : t.registry.map.lookup wireId = none) :
    ∀ c ∈ (t.table h).refs, (t.heap c).wireId ≠ wireId := by
  intro c hc heq
  have hserves := hk.serves s h hs
  have hsome := (hserves.registered c hc (hserves.unclosed hrun c hc)).1
  rw [heq, hnone] at hsome
  cases hsome

lemma list_snd {b : Nat} {wireId : UInt32} {entries : List (Option Nat)}
    (hins : (t.table h).insertFlow b = some entries) :
    (t.list h b wireId).2 = { t with tables := Function.update t.tables h entries } := by
  unfold list
  rw [hins]

lemma Kept.publish_again (hk : t.Kept) {existing : FlowBinding}
    (hs : t.sessions.lookup b.session = some h)
    (hb : t.registry.map.lookup b.wireId = some existing)
    (hsession : existing.session = b.session) :
    ((t.alloc b).list h (t.ref b.wireId) b.wireId).2.Kept := by
  have hbound := (hk.alloc b).bound b.wireId existing hb
  obtain ⟨h', hlive, hmem⟩ := hbound.home
  rw [hsession] at hlive
  obtain rfl : h = h' := some.inj (hs.symm.trans hlive)
  have hins : ((t.alloc b).table h).insertFlow (t.ref b.wireId) = some (t.tables h) := by
    unfold insertFlow
    rw [if_pos]
    · rfl
    · rw [findId, find?_isSome]
      exact ⟨_, hmem, decide_eq_true rfl⟩
  have hsame : Function.update (t.alloc b).tables h (t.tables h) = (t.alloc b).tables :=
    update_eq_self h t.tables
  rw [list_snd hins, hsame]
  exact hk.alloc b

lemma Kept.isFull_alloc (hk : t.Kept) (hroom : (t.table h).isFull = false) :
    ((t.alloc b).table h).isFull = false := by
  unfold isFull at hroom ⊢
  rw [Bool.not_eq_false', List.any_eq_true] at hroom ⊢
  obtain ⟨slot, hslot, hfree⟩ := hroom
  refine ⟨slot, hslot, ?_⟩
  cases slot with
  | none => rfl
  | some c =>
    have hc : c ∈ (t.table h).refs := mem_filterMap.mpr ⟨some c, hslot, rfl⟩
    change decide (((t.alloc b).heap c).state = .closed) = true
    rw [t.heap_alloc_of_lt b (hk.made h c hc)]
    exact hfree

section

variable (hk : t.Kept) (hs : t.sessions.lookup b.session = some h) (hrun : t.finished h = false)
  (hopen : b.state ≠ .closed)
include hk hs hrun hopen

lemma Kept.publish_new (hnone : t.registry.map.lookup b.wireId = none)
    (hcap : t.registry.map.size < t.registry.cap) (hroom : (t.table h).isFull = false) :
    (list { t.alloc b with
      registry := t.registry.add b
      ref := Function.update t.ref b.wireId t.allocated } h t.allocated b.wireId).2.Kept := by
  have hfresh := hk.wireId_ne hs hrun hnone
  have hheap : ∀ c ∈ (t.table h).refs, (t.alloc b).heap c = t.heap c :=
    fun c hc => t.heap_alloc_of_lt b (hk.made h c hc)
  obtain ⟨entries, hins⟩ : ∃ entries,
      ((t.alloc b).table h).insertFlow t.allocated = some entries := by
    refine insertFlow_isSome fun hfull => ?_
    rw [hk.isFull_alloc hroom] at hfull
    cases hfull
  rw [list_snd (show (table { t.alloc b with
    registry := t.registry.add b
    ref := Function.update t.ref b.wireId t.allocated } h).insertFlow t.allocated = some entries
    from hins)]
  cases inserted_of_insertFlow hins with
  | known c hmem hid hentries =>
    change ((t.alloc b).heap c).wireId = ((t.alloc b).heap t.allocated).wireId at hid
    rw [hheap c hmem, t.heap_alloc_self b] at hid
    exact absurd hid (hfresh c hmem)
  | placed hnew hlen before behind removed hold hrefs hclosed =>
    have hclosed' : ∀ c ∈ removed, (t.heap c).state = .closed := by
      intro c hc
      have hmem : c ∈ (t.table h).refs := by
        change c ∈ ((t.alloc b).table h).refs
        rw [hold]
        exact mem_append_left _ (mem_append_right _ hc)
      rw [← hheap c hmem]
      exact hclosed c hc
    exact hk.adds ⟨rfl, rfl, rfl, rfl, rfl, rfl, rfl, rfl, rfl,
      hk.lists hold hrefs hclosed' rfl⟩ hs hopen hnone hcap

/-- A flow for a session whose reader runs goes into both tables or into none. -/
lemma Kept.publish (hroom : (t.table h).isFull = true → ((t.table h).findId b.wireId).isSome) :
    (t.publish h b).2.Kept := by
  unfold FlowTables.publish FlowRegistry.insert
  cases hb : t.registry.map.lookup b.wireId with
  | some existing =>
    dsimp only
    unfold FlowRegistry.reopen
    by_cases hsame : existing.session = b.session ∧ existing.target = b.target
    · rw [if_pos hsame]
      rw [isSome_some, if_pos rfl, update_eq_self]
      exact hk.publish_again hs hb hsame.1
    · rw [if_neg hsame]
      exact hk.alloc b
  | none =>
    by_cases hfull : t.registry.cap ≤ t.registry.map.size
    · rw [if_pos hfull]
      exact hk.alloc b
    rw [if_neg hfull]
    rw [isSome_none, if_neg Bool.false_ne_true]
    refine hk.publish_new hs hrun hopen hb (Nat.lt_of_not_le hfull) ?_
    cases htable : (t.table h).isFull with
    | false => rfl
    | true =>
      obtain ⟨c, hc⟩ := isSome_iff_exists.mp (hroom htable)
      have hid := find?_some (p := fun c => decide ((t.heap c).wireId = b.wireId)) hc
      exact absurd (of_decide_eq_true hid) (hk.wireId_ne hs hrun hb c (mem_of_find?_eq_some hc))

end

lemma Kept.r2Install (hk : t.Kept) (sess wireId : UInt32) (target : TargetAddr)
    (resolved : List SocketAddr) : (t.r2Install sess wireId target resolved).2.Kept := by
  unfold FlowTables.r2Install
  cases hlive : t.sessionR2Flows sess with
  | none => exact hk
  | some h =>
    obtain ⟨hs, hrun⟩ := mem_sessionR2Flows.mp hlive
    dsimp only
    split
    · exact hk
    rename_i hroom
    refine hk.publish hs hrun nofun fun hfull => ?_
    rw [hfull, Bool.true_and, isNone_iff_eq_none] at hroom
    exact isSome_iff_ne_none.mpr hroom

lemma Kept.withIds (hk : t.Kept) (ids : FlowIds) : Kept { t with ids := ids } where
  indexed := hk.indexed
  bound wireId b hb := by
    obtain ⟨hmade, hwireId, hsession, hstate, hhome, honly⟩ := hk.bound wireId b hb
    exact ⟨hmade, hwireId, hsession, hstate, hhome, honly⟩
  serves s h hs := by
    obtain ⟨hmade, howner, hunreaped, hown, hregistered, hunclosed⟩ := hk.serves s h hs
    exact ⟨hmade, howner, hunreaped, hown, hregistered, hunclosed⟩
  once := hk.once
  made := hk.made
  reaped := hk.reaped

lemma Kept.installUnsolicited (hk : t.Kept) (hrun : t.finished h = false)
    (hs : t.sessions.lookup (t.owner h) = some h) (src : SocketAddr) :
    (t.installUnsolicited h src).2.Kept := by
  unfold FlowTables.installUnsolicited
  split
  · exact hk
  rename_i hroom
  split
  · exact hk
  split
  · next ids _ => exact hk.withIds ids
  rename_i wireId ids _
  have hpublish := (hk.withIds ids).publish (h := h)
    (b := ((FlowBinding.new wireId (t.owner h) (.ip src)).setReplySrc src).markOpen)
    hs hrun nofun fun hfull => absurd hfull hroom
  split
  · next heq => exact (congrArg (fun out => out.2.Kept) heq).mp hpublish
  · next heq => exact (congrArg (fun out => out.2.Kept) heq).mp hpublish

variable {s : UInt32}

lemma refs_spawn_self : ((t.spawn s).table t.readers).refs = [] := by
  unfold spawn table refs
  dsimp only
  rw [update_self]
  rfl

lemma refs_spawn_of_ne (hne : h ≠ t.readers) : ((t.spawn s).table h).refs = (t.table h).refs := by
  unfold spawn table refs
  dsimp only
  rw [update_of_ne hne]

/-- A reader starts with an empty table. -/
lemma Kept.spawn (hk : t.Kept) (s : UInt32) : (t.spawn s).Kept where
  indexed := hk.indexed
  bound wireId b hb := by
    have hold := hk.bound wireId b hb
    obtain ⟨h, hlive, hmem⟩ := hold.home
    have hne : h ≠ t.readers := Nat.ne_of_lt (hk.serves _ h hlive).made
    refine ⟨hold.made, hold.wireId_eq, hold.session_eq, hold.unclosed, ⟨h, hlive, ?_⟩,
      fun h' hmem' => ?_⟩
    · rw [t.refs_spawn_of_ne hne]
      exact hmem
    · by_cases heq : h' = t.readers
      · rw [heq, refs_spawn_self] at hmem'
        cases hmem'
      · rw [t.refs_spawn_of_ne heq] at hmem'
        exact hold.only h' hmem'
  serves s' h hs := by
    have hold := hk.serves s' h hs
    have hne : h ≠ t.readers := Nat.ne_of_lt hold.made
    refine ⟨Nat.lt_succ_of_lt hold.made, ?_, hold.unreaped, fun b hb => ?_, fun b hb => ?_,
      fun hrun b hb => ?_⟩
    · exact (update_of_ne hne ..).trans hold.owner_eq
    · rw [t.refs_spawn_of_ne hne] at hb
      exact hold.own b hb
    · rw [t.refs_spawn_of_ne hne] at hb
      exact hold.registered b hb
    · rw [t.refs_spawn_of_ne hne] at hb
      exact hold.unclosed ((update_of_ne hne ..).symm.trans hrun) b hb
  once h := by
    by_cases heq : h = t.readers
    · rw [heq, refs_spawn_self]
      exact nodup_nil
    · rw [t.refs_spawn_of_ne heq]
      exact hk.once h
  made h b hb := by
    by_cases heq : h = t.readers
    · rw [heq, refs_spawn_self] at hb
      cases hb
    · rw [t.refs_spawn_of_ne heq] at hb
      exact hk.made h b hb
  reaped h hh := Nat.lt_succ_of_lt (hk.reaped h hh)

lemma Kept.enter (hk : t.Kept) {s : UInt32} (hnone : t.sessions.lookup s = none)
    (hmade : h < t.readers) (howner : t.owner h = s) (hreaped : h ∉ t.reaped)
    (hempty : (t.table h).refs = []) : Kept { t with sessions := t.sessions.insert s h } := by
  have hother : ∀ s' h', t.sessions.lookup s' = some h' →
      (t.sessions.insert s h).lookup s' = some h' := by
    intro s' h' hs'
    rw [AList.lookup_insert_ne]
    · exact hs'
    · rintro rfl
      exact absurd (hs'.symm.trans hnone) nofun
  have hnil : ∀ b, b ∉ (t.table h).refs := by
    intro b hb
    rw [hempty] at hb
    cases hb
  refine ⟨hk.indexed, fun wireId b hb => ?_, fun s' h' hs' => ?_, hk.once, hk.made, hk.reaped⟩
  · have hold := hk.bound wireId b hb
    obtain ⟨h', hlive, hmem⟩ := hold.home
    exact ⟨hold.made, hold.wireId_eq, hold.session_eq, hold.unclosed,
      ⟨h', hother _ h' hlive, hmem⟩, fun h'' hmem' => hother _ h'' (hold.only h'' hmem')⟩
  · rcases Map.lookup_insert_cases hs' with ⟨rfl, rfl⟩ | ⟨-, hs'⟩
    · exact ⟨hmade, howner, hreaped, fun b hb => absurd hb (hnil b),
        fun b hb => absurd hb (hnil b), fun _ b hb => absurd hb (hnil b)⟩
    · have hold := hk.serves s' h' hs'
      exact ⟨hold.made, hold.owner_eq, hold.unreaped, hold.own, hold.registered, hold.unclosed⟩

lemma Kept.create (hk : t.Kept) {s : UInt32} (hnone : t.sessions.lookup s = none) :
    Kept { t.spawn s with sessions := t.sessions.insert s t.readers } := by
  refine (hk.spawn s).enter hnone (Nat.lt_succ_self t.readers) ?_ (fun hmem => ?_)
    (t.refs_spawn_self)
  · unfold FlowTables.spawn
    dsimp only
    rw [update_self]
  · exact Nat.lt_irrefl _ (hk.reaped _ hmem)

lemma lookup_sweep_self (idle : List UInt32) : (t.sweep (s :: idle)).sessions.lookup s = none := by
  obtain ⟨-, hleft⟩ := takeIdle_spec t.sessions (s :: idle)
  rw [eq_none_iff_forall_ne_some]
  intro h hs
  obtain ⟨hlive, hne⟩ := (hleft s h).mp hs
  rw [takeIdle, hlive] at hne
  exact hne mem_cons_self

lemma Kept.getOrCreateSess (hk : t.Kept) (s : UInt32) (idle : List UInt32) (published : Bool) :
    (t.getOrCreateSess s idle published).Kept := by
  unfold FlowTables.getOrCreateSess
  split
  · exact hk
  split
  · exact hk
  have hswept := hk.sweep (s :: idle)
  split
  · exact hswept.create (t.lookup_sweep_self idle)
  · exact hswept.spawn s

lemma Kept.next (hk : t.Kept) (ev : TablesEvent) (hev : t.Attached ev) : (t.next ev).Kept := by
  cases ev with
  | create s idle published => exact hk.getOrCreateSess s idle published
  | install sess wireId target resolved => exact hk.r2Install sess wireId target resolved
  | unsolicited h src =>
    unfold FlowTables.next
    dsimp only
    split
    · next hrun => exact hk.installUnsolicited hrun.2 hev src
    · exact hk
  | removeFlow wireId => exact hk.r2RemoveFlow wireId
  | closeSession sess => exact hk.r2CloseSession sess
  | sweep idle => exact hk.sweep idle
  | markReaped h =>
    unfold FlowTables.next
    dsimp only
    split
    · rename_i hmem
      exact hk.markReaped (fun s hs => (hk.serves s h hs).unreaped hmem) erase_subset
    · exact hk
  | exit h =>
    unfold FlowTables.next
    dsimp only
    split
    · exact hk.readerExit h
    · exact hk
  | stop h => exact hk.stop h

/-- While reply readers install flows only for the session they serve, the reverse tables list the
flows of the registry, no flow in the registry is closed, and each is of a session that is there. -/
theorem tables_agree (wire : Wire) (cap : Nat) (evs : List TablesEvent)
    (h : Along next Attached (new wire cap) evs) : (after next (new wire cap) evs).Agrees := by
  have hstep : ∀ (t : FlowTables) (ev : TablesEvent), t.Kept → t.Attached ev → (t.next ev).Kept :=
    fun _ ev hk hev => hk.next ev hev
  exact (after_of_invariant hstep (new_kept wire cap) h).agrees

/-- Flows of both ends are installed, one is closed, the session is swept and made anew, and the
peer closes it. -/
theorem tables_agree_recreated :
    let host := SocketAddr.v4 (.new 10 0 0 1) 53
    let evs : List TablesEvent :=
      [.create 1 [] true, .install 1 2 (.ip host) [], .install 1 4 (.domain "a.example" 53) [host],
        .unsolicited 0 (.v4 (.new 10 9 9 9) 80), .removeFlow 2, .sweep [1, 5],
        .create 1 [] true, .install 1 6 (.ip host) [], .markReaped 0, .stop 0, .closeSession 1]
    Along next Attached (new .rev3 maxFlowsPerConn) evs ∧
      (after next (new .rev3 maxFlowsPerConn) evs).Agrees :=
  ⟨by decide +kernel, tables_agree .rev3 maxFlowsPerConn _ (by decide +kernel)⟩

/-- A session is swept while its reader is at a datagram from an unknown source. The reader installs
a flow that the registry keeps: first of a session that is gone, and then a closed one. -/
theorem late_reader_leaves_flow :
    let t := after next (new .rev3 maxFlowsPerConn)
      [.create 1 [] true, .sweep [1], .unsolicited 0 (.v4 (.new 10 9 9 9) 80)]
    ¬ t.Agrees ∧ ¬ (t.next (.markReaped 0)).Agrees := by
  intro t
  constructor
  · intro h
    obtain ⟨h, hlive⟩ := h.live 3 0 ⟨by decide +kernel, by decide +kernel⟩
    have hgone : t.sessions.lookup (t.heap 0).session = none := by decide +kernel
    exact absurd (hlive.symm.trans hgone) nofun
  · intro h
    exact h.unclosed 3 0 ⟨by decide +kernel, by decide +kernel⟩ (by decide +kernel)

end FlowTables

end MyQuic2
