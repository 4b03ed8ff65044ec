import MyQuic2.Mqp.FlowRegistry
import MyQuic2.Server.SessionReader

/-!
# What the reply reader keeps

A verdict, from the memo or from the scan, is about a binding of the published
table. The table lists no id twice, ids of the server are never handed out again,
and a context frame touches the binding and the window of its own flow alone.
-/

namespace MyQuic2

open List Function Option Bool AList SessionReader ReplyReader

/-- A verdict is about one of some bindings, and an exact one about a binding that has learned the
source and had it confirmed, or targets it. -/
structure SourceVerdict.About (heap : Nat → FlowBinding) (src : SocketAddr) (bs : List Nat)
    (v : SourceVerdict) : Prop where
  mem : v.binding ∈ bs
  exact_of : v.exact = true →
    (heap v.binding).replySrc = some src ∧ (heap v.binding).replySrcAcked = true ∨
      (heap v.binding).target = .ip src

lemma matchShared_about {heap : Nat → FlowBinding} {src : SocketAddr} {all bs : List Nat}
    {exact rebind : Option Nat} {v : SourceVerdict} (hbs : ∀ b ∈ bs, b ∈ all)
    (hexact : ∀ b ∈ exact, b ∈ all ∧ (heap b).target = .ip src) (hrebind : ∀ b ∈ rebind, b ∈ all)
    (h : matchShared heap src bs exact rebind = some v) : v.About heap src all := by
  induction bs generalizing exact rebind with
  | nil =>
    cases exact with
    | some b =>
      obtain rfl := some.inj h
      exact ⟨(hexact b rfl).1, fun _ => Or.inr (hexact b rfl).2⟩
    | none =>
      obtain ⟨b, hb, rfl⟩ := map_eq_some_iff.mp h
      exact ⟨hrebind b hb, fun h => absurd h false_ne_true⟩
  | cons b bs ih =>
    obtain ⟨hb, hbs⟩ := forall_mem_cons.mp hbs
    rw [matchShared] at h
    split at h
    · rename_i hlearned
      split at h
      · rename_i hsure
        obtain rfl := some.inj h
        refine ⟨hb, fun _ => ?_⟩
        rcases (or_eq_true _ _).mp hsure with hacked | htarget
        · exact Or.inl ⟨hlearned, hacked⟩
        · exact Or.inr (of_decide_eq_true htarget)
      · refine ih hbs hexact (fun c hc => ?_) h
        cases rebind with
        | some c' => exact hrebind c hc
        | none =>
          cases hc
          exact hb
    · refine ih hbs (fun c hc => ?_) (fun c hc => ?_) h
      · split at hc
        · rename_i hcond
          cases hc
          exact ⟨hb, of_decide_eq_true ((and_eq_true _ _).mp hcond).2⟩
        · exact hexact c hc
      · split at hc
        · cases hc
          exact hb
        · exact hrebind c hc

namespace ReplyReader

variable {r : ReplyReader}

/-- The verdicts that the memo remembers of the current table are about its bindings as they were
observed. -/
structure Keeps (r : ReplyReader) : Prop where
  snapshot : ∀ i, ∀ e ∈ r.memo i, e.snapshot ≤ r.snapshot
  mem : ∀ i, ∀ e ∈ r.memo i, e.snapshot = r.snapshot → e.binding ∈ r.refs
  exact_of : ∀ i, ∀ e ∈ r.memo i, e.snapshot = r.snapshot → e.exact = true →
    e.observedReplySrc = some e.src ∧ e.observedAcked = true ∨ (r.heap e.binding).target = .ip e.src

variable {b : Nat} {src : SocketAddr} {v : SourceVerdict} {entries : List (Option Nat)}

lemma mem_refs : b ∈ r.refs ↔ some b ∈ r.entries := by
  rw [refs, mem_filterMap]
  constructor
  · rintro ⟨slot, hslot, rfl⟩
    exact hslot
  · intro h
    exact ⟨some b, h, rfl⟩

/-- What a classification gives, and what it leaves alone. -/
structure Classified (r : ReplyReader) (src : SocketAddr)
    (out : Option SourceVerdict × ReplyReader) : Prop where
  about : ∀ v, out.1 = some v → v.About r.heap src r.refs ∧ (r.heap v.binding).state ≠ .closed
  heap : out.2.heap = r.heap
  entries : out.2.entries = r.entries
  snapshot : out.2.snapshot = r.snapshot
  keeps : out.2.Keeps

lemma Keeps.lookup (h : r.Keeps) (hv : r.memo.lookup r.heap r.snapshot src = some v) :
    v.About r.heap src r.refs ∧ (r.heap v.binding).state ≠ .closed := by
  obtain ⟨i, e, he, rfl, rfl, hsnapshot, hstate, hsrc, hacked⟩ := ReplySourceMemo.lookup_eq_some hv
  refine ⟨⟨h.mem i e he hsnapshot.symm, fun hexact => ?_⟩, hstate⟩
  rw [hsrc, hacked]
  exact h.exact_of i e he hsnapshot.symm hexact

lemma freshMatch_about (hv : r.freshMatch src = some v) :
    v.About r.heap src r.refs ∧ (r.heap v.binding).state ≠ .closed := by
  obtain ⟨hscan, hstate⟩ := filter_eq_some_iff.mp hv
  refine ⟨matchShared_about (fun _ hb => hb) (fun b hb => ?_) (fun b hb => ?_) hscan,
    of_decide_eq_true hstate⟩
  · cases hb
  · cases hb

lemma Keeps.record (h : r.Keeps) (hv : r.freshMatch src = some v) :
    Keeps { r with memo := r.memo.record r.heap src r.snapshot v } := by
  obtain ⟨habout, -⟩ := freshMatch_about hv
  refine ⟨fun i e he => ?_, fun i e he hs => ?_, fun i e he hs hexact => ?_⟩
  · rcases ReplySourceMemo.mem_record he with ⟨-, rfl⟩ | hold
    · exact Nat.le_refl _
    · exact h.snapshot i e hold
  · rcases ReplySourceMemo.mem_record he with ⟨-, rfl⟩ | hold
    · exact habout.mem
    · exact h.mem i e hold hs
  · rcases ReplySourceMemo.mem_record he with ⟨-, rfl⟩ | hold
    · exact habout.exact_of hexact
    · exact h.exact_of i e hold hs hexact

lemma Keeps.classified (h : r.Keeps) (src : SocketAddr) :
    Classified r src (r.classifyReplySource src) := by
  unfold classifyReplySource
  split
  · rename_i v hv
    refine ⟨fun w hw => ?_, rfl, rfl, rfl, h⟩
    obtain rfl := some.inj hw
    exact h.lookup hv
  split
  · rename_i v hv
    refine ⟨fun w hw => ?_, rfl, rfl, rfl, h.record hv⟩
    obtain rfl := some.inj hw
    exact freshMatch_about hv
  · refine ⟨fun w hw => ?_, rfl, rfl, rfl, h⟩
    cases hw

/-- The bindings that the table lists keep their targets. -/
lemma Keeps.congr (h : r.Keeps) {r' : ReplyReader} (hmemo : r'.memo = r.memo)
    (hsnapshot : r'.snapshot = r.snapshot) (hentries : r'.entries = r.entries)
    (htarget : ∀ b ∈ r.refs, (r'.heap b).target = (r.heap b).target) : r'.Keeps := by
  have hrefs : r'.refs = r.refs := by rw [refs, refs, hentries]
  refine ⟨fun i e he => ?_, fun i e he hs => ?_, fun i e he hs hexact => ?_⟩
  · rw [hmemo] at he
    rw [hsnapshot]
    exact h.snapshot i e he
  · rw [hmemo] at he
    rw [hsnapshot] at hs
    rw [hrefs]
    exact h.mem i e he hs
  · rw [hmemo] at he
    rw [hsnapshot] at hs
    rw [htarget _ (h.mem i e he hs)]
    exact h.exact_of i e he hs hexact

/-- Nothing is remembered of a table that is published anew. -/
lemma Keeps.publish (h : r.Keeps) {r' : ReplyReader} (hmemo : r'.memo = r.memo)
    (hsnapshot : r'.snapshot = r.snapshot + 1) : r'.Keeps := by
  have hold : ∀ i, ∀ e ∈ r'.memo i, e.snapshot ≤ r.snapshot := by
    intro i e he
    rw [hmemo] at he
    exact h.snapshot i e he
  have hne : ∀ i, ∀ e ∈ r'.memo i, e.snapshot ≠ r'.snapshot := by
    intro i e he heq
    have hle := hold i e he
    rw [heq, hsnapshot] at hle
    exact Nat.not_succ_le_self _ hle
  refine ⟨fun i e he => ?_, fun i e he hs => absurd hs (hne i e he),
    fun i e he hs => absurd hs (hne i e he)⟩
  rw [hsnapshot]
  exact Nat.le_succ_of_le (hold i e he)

/-- A placed binding takes a slot that is free; the others stay. -/
lemma placeIn_refs {free : Option Nat → Bool} {entries' : List (Option Nat)}
    (h : placeIn free b entries = some entries') :
    entries'.length = entries.length ∧
      ∃ before behind removed, entries.filterMap id = before ++ removed ++ behind ∧
        entries'.filterMap id = before ++ b :: behind ∧ ∀ c ∈ removed, free (some c) = true := by
  induction entries generalizing entries' with
  | nil => cases h
  | cons slot rest ih =>
    rw [placeIn] at h
    split at h
    · rename_i hfree
      obtain rfl := some.inj h
      refine ⟨rfl, [], rest.filterMap id, slot.toList, ?_, rfl, fun c hc => ?_⟩
      · cases slot <;> rfl
      · rw [mem_toList] at hc
        rw [← hc]
        exact hfree
    obtain ⟨rest', hrest, rfl⟩ := map_eq_some_iff.mp h
    obtain ⟨hlen, before, behind, removed, hrefs, hrefs', hremoved⟩ := ih hrest
    refine ⟨congrArg Nat.succ hlen, slot.toList ++ before, behind, removed, ?_, ?_, hremoved⟩
    · cases slot with
      | none => exact hrefs
      | some c => exact congrArg (c :: ·) hrefs
    · cases slot with
      | none => exact hrefs'
      | some c => exact congrArg (c :: ·) hrefs'

lemma placeIn_isSome {free : Option Nat → Bool} {slot : Option Nat} (hmem : slot ∈ entries)
    (hfree : free slot = true) : ∃ entries', placeIn free b entries = some entries' := by
  induction entries with
  | nil => cases hmem
  | cons first rest ih =>
    rw [placeIn]
    split
    · exact ⟨_, rfl⟩
    rename_i hfirst
    rcases mem_cons.mp hmem with rfl | hrest
    · exact absurd hfree hfirst
    obtain ⟨rest', hrest'⟩ := ih hrest
    rw [hrest']
    exact ⟨_, rfl⟩

/-- What an insert does to the table. -/
inductive Inserted (r : ReplyReader) (b : Nat) (entries : List (Option Nat)) : Prop where
  | known (c : Nat) (hmem : c ∈ r.refs) (hid : (r.heap c).wireId = (r.heap b).wireId)
      (hentries : entries = r.entries)
  /-- It takes a slot that was free or held a closed binding. -/
  | placed (hnew : ∀ c ∈ r.refs, (r.heap c).wireId ≠ (r.heap b).wireId)
      (hlen : entries.length = r.entries.length) (before behind removed : List Nat)
      (hold : r.refs = before ++ removed ++ behind)
      (hrefs : entries.filterMap id = before ++ b :: behind)
      (hclosed : ∀ c ∈ removed, (r.heap c).state = .closed)

lemma inserted_of_insertFlow (h : r.insertFlow b = some entries) : Inserted r b entries := by
  unfold insertFlow at h
  split at h
  · rename_i hsome
    obtain ⟨c, hc⟩ := isSome_iff_exists.mp hsome
    refine .known c (mem_of_find?_eq_some hc) ?_ (some.inj h).symm
    exact of_decide_eq_true (find?_some (p := fun b' => decide ((r.heap b').wireId = _)) hc)
  rename_i hnone
  obtain ⟨hlen, before, behind, removed, hold, hrefs, hfree⟩ := placeIn_refs h
  refine .placed (fun c hc heq => hnone ?_) hlen before behind removed hold hrefs
    fun c hc => of_decide_eq_true (hfree c hc)
  rw [findId, find?_isSome]
  exact ⟨c, hc, decide_eq_true heq⟩

lemma without_refs (r : ReplyReader) (wireId : UInt32) (entries : List (Option Nat)) :
    (r.without wireId entries).length = entries.length ∧
      ((r.without wireId entries).filterMap id).Sublist (entries.filterMap id) ∧
      ∀ b ∈ entries.filterMap id, (r.heap b).wireId ≠ wireId →
        b ∈ (r.without wireId entries).filterMap id := by
  induction entries with
  | nil => exact ⟨rfl, .refl _, fun b hb _ => hb⟩
  | cons slot rest ih =>
    obtain ⟨hlen, hsub, hkept⟩ := ih
    unfold without
    split
    · rename_i hslot
      cases slot with
      | none => cases hslot
      | some c =>
        refine ⟨rfl, sublist_cons_self _ _, fun b hb hne => ?_⟩
        refine (mem_cons.mp hb).resolve_left ?_
        rintro rfl
        exact hne (of_decide_eq_true hslot)
    refine ⟨congrArg Nat.succ hlen, ?_, fun b hb hne => ?_⟩
    · cases slot with
      | none => exact hsub
      | some c => exact hsub.cons_cons c
    · cases slot with
      | none => exact hkept b hb hne
      | some c =>
        rcases mem_cons.mp hb with rfl | hb
        · exact mem_cons_self
        · exact mem_cons_of_mem _ (hkept b hb hne)

/-- A binding that alone has the id is not left. -/
lemma not_mem_without {wireId : UInt32} (honce : (entries.filterMap id).Nodup)
    (hwireId : (r.heap b).wireId = wireId)
    (hall : ∀ c ∈ entries.filterMap id, (r.heap c).wireId = wireId → c = b) :
    b ∉ (r.without wireId entries).filterMap id := by
  induction entries with
  | nil => exact not_mem_nil
  | cons slot rest ih =>
    rw [without]
    cases slot with
    | none => exact ih honce hall
    | some c =>
      obtain ⟨hc, honce⟩ := nodup_cons.mp honce
      rw [any_some]
      by_cases hid : (r.heap c).wireId = wireId
      · rw [if_pos (decide_eq_true hid)]
        obtain rfl := hall c mem_cons_self hid
        exact hc
      rw [if_neg fun htrue => hid (of_decide_eq_true htrue)]
      refine not_mem_cons_of_ne_of_not_mem ?_ (ih honce fun c' hc' =>
        hall c' (mem_cons_of_mem _ hc'))
      rintro rfl
      exact hid hwireId

/-- A table with a free slot, or with the id, takes a flow. -/
lemma insertFlow_isSome (h : r.isFull = true → (r.findId (r.heap b).wireId).isSome) :
    ∃ entries, r.insertFlow b = some entries := by
  unfold insertFlow
  split
  · exact ⟨_, rfl⟩
  rename_i hnone
  cases hfull : r.isFull with
  | true => exact absurd (h hfull) hnone
  | false =>
    unfold isFull at hfull
    rw [not_eq_false', List.any_eq_true] at hfull
    obtain ⟨slot, hslot, hfree⟩ := hfull
    exact placeIn_isSome hslot hfree

end ReplyReader

namespace SessionReader

variable {s : SessionReader}

/-- Bindings in use were made, no id is listed twice, and the server's ids come from the counter. -/
structure Held (s : SessionReader) : Prop where
  bound : ∀ b ∈ s.refs, b < s.allocated
  distinct : (s.refs.map fun b => (s.heap b).wireId).Nodup
  length : s.entries.length = maxFlowsPerSession
  keeps : s.Keeps
  waiting : ∀ p ∈ s.pending, ∀ v ∈ p.verdict, v.binding < s.allocated
  owner : s.ids.serverOwned = true
  issued : ∀ b < s.allocated, Wire.wireIdServerOwned (s.heap b).wireId = true →
    (s.heap b).wireId.toNat ≤ 2 * s.ids.next.toNat + 1

lemma new_held (sess : UInt32) : (new sess).Held := by
  have hrefs : (new sess).refs = [] := rfl
  refine ⟨?_, ?_, rfl, ⟨?_, ?_, ?_⟩, ?_, rfl, ?_⟩
  · rw [hrefs]
    exact fun b hb => absurd hb not_mem_nil
  · rw [hrefs]
    exact nodup_nil
  · rintro i e ⟨⟩
  · rintro i e ⟨⟩
  · rintro i e ⟨⟩
  · rintro p ⟨⟩
  · exact nofun

lemma heap_alloc_self (s : SessionReader) (b : FlowBinding) :
    (s.alloc b).heap s.allocated = b := update_self ..

lemma heap_alloc_of_lt (s : SessionReader) (b : FlowBinding) {c : Nat} (hc : c < s.allocated) :
    (s.alloc b).heap c = s.heap c := update_of_ne (Nat.ne_of_lt hc) ..

/-- A binding is added to the table in a slot that was free or held a closed one. -/
structure Places (s : SessionReader) (b : FlowBinding) (entries : List (Option Nat)) : Prop where
  fresh : ∀ c ∈ s.refs, (s.heap c).wireId ≠ b.wireId
  length : entries.length = s.entries.length
  split : ∃ before behind removed, s.refs = before ++ removed ++ behind ∧
    entries.filterMap id = before ++ s.allocated :: behind ∧
    ∀ c ∈ removed, (s.heap c).state = .closed

variable {b : FlowBinding} {entries : List (Option Nat)} {ids : FlowIds} {log : List WindowEntry}

lemma Places.mem (h : s.Places b entries) {c : Nat} (hc : c ∈ entries.filterMap id) :
    c = s.allocated ∨ c ∈ s.refs := by
  obtain ⟨before, behind, removed, hold, hnew, -⟩ := h.split
  rw [hnew, mem_append, mem_cons] at hc
  rw [hold, mem_append, mem_append]
  rcases hc with hc | rfl | hc
  · exact Or.inr (Or.inl (Or.inl hc))
  · exact Or.inl rfl
  · exact Or.inr (Or.inr hc)

lemma Places.mem_of_open (h : s.Places b entries) {c : Nat} (hc : c ∈ s.refs)
    (hstate : (s.heap c).state ≠ .closed) : c ∈ entries.filterMap id := by
  obtain ⟨before, behind, removed, hold, hnew, hclosed⟩ := h.split
  rw [hold, mem_append, mem_append] at hc
  rw [hnew, mem_append, mem_cons]
  rcases hc with (hc | hc) | hc
  · exact Or.inl hc
  · exact absurd (hclosed c hc) hstate
  · exact Or.inr (Or.inr hc)

lemma Places.mem_self (h : s.Places b entries) : s.allocated ∈ entries.filterMap id := by
  obtain ⟨before, behind, removed, -, hnew, -⟩ := h.split
  rw [hnew]
  exact mem_append_right _ mem_cons_self

/-- A new binding is inserted, unless the table lists its id. -/
lemma Held.insertFlow_alloc (h : s.Held)
    (hins : (s.alloc b).insertFlow s.allocated = some entries) :
    (entries = s.entries ∧ ∃ c ∈ s.refs, (s.heap c).wireId = b.wireId) ∨ s.Places b entries := by
  have hheap : ∀ c ∈ s.refs, (s.alloc b).heap c = s.heap c := fun c hc =>
    s.heap_alloc_of_lt b (h.bound c hc)
  cases inserted_of_insertFlow hins with
  | known c hmem hid hentries =>
    rw [hheap c hmem, s.heap_alloc_self b] at hid
    exact Or.inl ⟨hentries, c, hmem, hid⟩
  | placed hnew hlen before behind removed hold hrefs hclosed =>
    refine Or.inr ⟨fun c hc => ?_, hlen, before, behind, removed, hold, hrefs, fun c hc => ?_⟩
    · have hne := hnew c hc
      rwa [hheap c hc, s.heap_alloc_self b] at hne
    · have hmem : c ∈ s.refs := by
        change c ∈ (s.alloc b).refs
        rw [hold]
        exact mem_append_left _ (mem_append_right _ hc)
      rw [← hheap c hmem]
      exact hclosed c hc

/-- Two bindings differ in nothing that names the flow. -/
structure SameIdentity (b b' : FlowBinding) : Prop where
  wireId : b'.wireId = b.wireId
  target : b'.target = b.target

/-- Steps that neither list nor make a binding. -/
lemma Held.congr (h : s.Held) {s' : SessionReader} (hentries : s'.entries = s.entries)
    (hallocated : s'.allocated = s.allocated) (hmemo : s'.memo = s.memo)
    (hsnapshot : s'.snapshot = s.snapshot)
    (hheap : ∀ b < s.allocated, SameIdentity (s.heap b) (s'.heap b))
    (hpending : ∀ p ∈ s'.pending, ∀ v ∈ p.verdict, v.binding < s.allocated)
    (howner : s'.ids.serverOwned = s.ids.serverOwned) (hids : s.ids.next ≤ s'.ids.next) :
    s'.Held := by
  have hrefs : s'.refs = s.refs := by rw [refs, refs, hentries]
  refine ⟨?_, ?_, ?_, ?_, ?_, ?_, ?_⟩
  · rw [hrefs, hallocated]
    exact h.bound
  · rw [hrefs, map_congr_left fun b hb => (hheap b (h.bound b hb)).wireId]
    exact h.distinct
  · rw [hentries]
    exact h.length
  · exact h.keeps.congr hmemo hsnapshot hentries fun b hb => (hheap b (h.bound b hb)).target
  · rw [hallocated]
    exact hpending
  · rw [howner]
    exact h.owner
  · intro b hb hown
    rw [hallocated] at hb
    rw [(hheap b hb).wireId] at hown ⊢
    have hle := h.issued b hb hown
    have hnext := UInt32.le_iff_toNat_le.mp hids
    omega

/-- A table that lists bindings of the old one is published. -/
lemma Held.publish (h : s.Held) (hlen : entries.length = s.entries.length)
    (hsub : (entries.filterMap id).Sublist s.refs) : (s.publish entries).Held := by
  refine ⟨fun b hb => h.bound b (hsub.subset hb), ?_, hlen.trans h.length,
    h.keeps.publish rfl rfl, h.waiting, h.owner, h.issued⟩
  exact (hsub.map _).nodup h.distinct

lemma Held.alloc (h : s.Held) (howner : ids.serverOwned = true) (hids : s.ids.next ≤ ids.next)
    (hissued : Wire.wireIdServerOwned b.wireId = true → b.wireId.toNat ≤ 2 * ids.next.toNat + 1) :
    Held { s.alloc b with ids := ids, log := log } := by
  have hheap : ∀ c < s.allocated, (s.alloc b).heap c = s.heap c := fun c hc =>
    s.heap_alloc_of_lt b hc
  refine ⟨fun c hc => Nat.lt_succ_of_lt (h.bound c hc), ?_, h.length, ?_,
    fun p hp v hv => Nat.lt_succ_of_lt (h.waiting p hp v hv), howner, fun c hc hown => ?_⟩
  · have hmap : (s.refs.map fun c => ((s.alloc b).heap c).wireId) =
        s.refs.map fun c => (s.heap c).wireId :=
      map_congr_left fun c hc => by rw [hheap c (h.bound c hc)]
    change (s.refs.map fun c => ((s.alloc b).heap c).wireId).Nodup
    rw [hmap]
    exact h.distinct
  · exact h.keeps.congr rfl rfl rfl fun c hc =>
      congrArg FlowBinding.target (hheap c (h.bound c hc))
  have hnext := UInt32.le_iff_toNat_le.mp hids
  change ((s.alloc b).heap c).wireId.toNat ≤ 2 * ids.next.toNat + 1
  rcases Nat.lt_succ_iff_lt_or_eq.mp hc with hc | rfl
  · rw [hheap c hc] at hown ⊢
    have hle := h.issued c hc hown
    omega
  · rw [s.heap_alloc_self b] at hown ⊢
    exact hissued hown

/-- A new binding is listed. -/
lemma Held.places (h : s.Held) (halloc : Held { s.alloc b with ids := ids, log := log })
    (hp : s.Places b entries) :
    Held ({ s.alloc b with ids := ids, log := log }.publish entries) := by
  refine ⟨fun c hc => ?_, ?_, hp.length.trans h.length, halloc.keeps.publish rfl rfl,
    halloc.waiting, halloc.owner, halloc.issued⟩
  · rcases hp.mem hc with rfl | hc
    · exact Nat.lt_succ_self _
    · exact Nat.lt_succ_of_lt (h.bound c hc)
  obtain ⟨before, behind, removed, hold, hnew, -⟩ := hp.split
  change ((entries.filterMap id).map fun c => ((s.alloc b).heap c).wireId).Nodup
  have hsub : (before ++ behind).Sublist s.refs := by
    rw [hold, append_assoc]
    exact Sublist.append_left (sublist_append_right removed behind) before
  have hkeep : ((before ++ behind).map fun c => ((s.alloc b).heap c).wireId).Nodup := by
    rw [map_congr_left fun c hc => congrArg FlowBinding.wireId
      (s.heap_alloc_of_lt b (h.bound c (hsub.subset hc)))]
    exact (hsub.map _).nodup h.distinct
  rw [hnew, (perm_middle.map _).nodup_iff, map_cons, nodup_cons]
  refine ⟨fun hin => ?_, hkeep⟩
  obtain ⟨c, hc, hid⟩ := mem_map.mp hin
  rw [s.heap_alloc_self b, s.heap_alloc_of_lt b (h.bound c (hsub.subset hc))] at hid
  exact hp.fresh c (hsub.subset hc) hid

/-- What opening a flow does: nothing, a binding that is not listed, or one that is. -/
inductive Opens (s : SessionReader) : SessionReader → Prop where
  | refused : Opens s s
  | unlisted (b : FlowBinding) (hclient : Wire.wireIdServerOwned b.wireId = false) :
      Opens s (s.alloc b)
  | known (b : FlowBinding) (hclient : Wire.wireIdServerOwned b.wireId = false) :
      Opens s ((s.alloc b).publish s.entries)
  | listed (b : FlowBinding) (hclient : Wire.wireIdServerOwned b.wireId = false)
      (hsrc : b.replySrc = none) (entries : List (Option Nat)) (hplaces : s.Places b entries) :
      Opens s ((s.alloc b).publish entries)

section

variable (h : s.Held) (wireId : UInt32) (target : TargetAddr) (resolved : List SocketAddr)
include h

lemma Held.opens : Opens s (s.openFlow wireId target resolved) := by
  unfold openFlow
  split
  · exact .refused
  rename_i hserver
  have hclient : Wire.wireIdServerOwned wireId = false := eq_false_iff.mpr hserver
  split
  · exact .refused
  dsimp only
  split
  · rename_i entries hins
    rcases h.insertFlow_alloc hins with ⟨rfl, -⟩ | hplaces
    · exact .known _ hclient
    · exact .listed _ hclient rfl entries hplaces
  · exact .unlisted _ hclient

lemma Held.openFlow : (s.openFlow wireId target resolved).Held := by
  have halloc : ∀ b : FlowBinding, Wire.wireIdServerOwned b.wireId = false → (s.alloc b).Held :=
    fun b hclient => h.alloc h.owner (UInt32.le_refl _) fun hserver =>
      absurd hserver (eq_false_iff.mp hclient)
  have hopens := h.opens wireId target resolved
  generalize s.openFlow wireId target resolved = s' at hopens ⊢
  cases hopens with
  | refused => exact h
  | unlisted b hclient => exact halloc b hclient
  | known b hclient => exact (halloc b hclient).publish rfl (.refl _)
  | listed b hclient hsrc entries hplaces => exact h.places (halloc b hclient) hplaces

lemma Held.closeFlow : (s.closeFlow wireId).Held := by
  unfold SessionReader.closeFlow
  split
  · rename_i b hb
    refine h.congr rfl rfl rfl rfl (fun c hc => ?_) h.waiting rfl (UInt32.le_refl _)
    by_cases hcb : c = b
    · subst hcb
      dsimp only
      rw [update_self]
      exact ⟨rfl, rfl⟩
    · dsimp only
      rw [update_of_ne hcb]
      exact ⟨rfl, rfl⟩
  · exact h

lemma Held.removeFlow : (s.removeFlow wireId).Held := by
  obtain ⟨hlen, hsub, -⟩ := s.without_refs wireId s.entries
  exact h.publish hlen hsub

lemma Held.insertFlow_isSome (hfull : s.isFull = false) (b : FlowBinding) :
    ∃ entries, (s.alloc b).insertFlow s.allocated = some entries := by
  rw [isFull, not_eq_false'] at hfull
  obtain ⟨slot, hslot, hfree⟩ := any_eq_true.mp hfull
  unfold insertFlow
  split
  · exact ⟨_, rfl⟩
  refine placeIn_isSome hslot ?_
  cases slot with
  | none => rfl
  | some c =>
    have hc := h.bound c (mem_refs.mpr hslot)
    rw [reclaimable, s.heap_alloc_of_lt b hc]
    exact hfree

end

section

variable (s : SessionReader) (memo : ReplySourceMemo) (id : UInt32) (ids : FlowIds)
  (src : SocketAddr)

/-- The flow that is opened for an unknown source. -/
def unsolicited : FlowBinding :=
  ((FlowBinding.new id s.sess (.ip src)).setReplySrc src).markOpen

def withUnsolicited (entries : List (Option Nat)) : SessionReader :=
  { s.alloc (s.unsolicited id src) with
    ids := ids
    log := .learned id src :: s.log
    memo := memo }.publish entries

end

/-- The ways the flow of a reply is found. -/
inductive Resolves (s : SessionReader) (src : SocketAddr) :
    Option SourceVerdict × Bool × SessionReader → Prop where
  | found (v : SourceVerdict) (memo : ReplySourceMemo) (habout : v.About s.heap src s.refs)
      (hstate : (s.heap v.binding).state ≠ .closed) (hheld : Held { s with memo := memo }) :
      Resolves s src (some v, false, { s with memo := memo })
  | unknown (memo : ReplySourceMemo) (ids : FlowIds)
      (hheld : Held { s with memo := memo, ids := ids }) (hnext : s.ids.next ≤ ids.next) :
      Resolves s src (none, false, { s with memo := memo, ids := ids })
  | installed (memo : ReplySourceMemo) (id : UInt32) (ids : FlowIds)
      (entries : List (Option Nat)) (hplaces : s.Places (s.unsolicited id src) entries)
      (hid : id.toNat = 2 * ids.next.toNat + 1) (hnext : s.ids.next < ids.next)
      (hheld : (s.withUnsolicited memo id ids src entries).Held) :
      Resolves s src (some ⟨s.allocated, false⟩, true, s.withUnsolicited memo id ids src entries)

/-- A classification changes the memo alone. -/
lemma Held.classified (h : s.Held) (src : SocketAddr) {out : Option SourceVerdict × ReplyReader}
    (hout : s.classifyReplySource src = out) :
    ∃ memo, { s with toReplyReader := out.2 } = { s with memo := memo } ∧
      Held { s with memo := memo } ∧
      ∀ v, out.1 = some v → v.About s.heap src s.refs ∧ (s.heap v.binding).state ≠ .closed := by
  have hc := h.keeps.classified src
  rw [hout] at hc
  obtain ⟨v?, ⟨heap, entries, snapshot, memo⟩⟩ := out
  obtain ⟨habout, hheap, hentries, hsnapshot, hkeeps⟩ := hc
  dsimp only at hheap hentries hsnapshot
  subst hheap hentries hsnapshot
  exact ⟨memo, rfl, ⟨h.bound, h.distinct, h.length, hkeeps, h.waiting, h.owner, h.issued⟩, habout⟩

lemma Held.fresh (h : s.Held) {id : UInt32} (hid : id.toNat = 2 * ids.next.toNat + 1)
    (hnext : s.ids.next < ids.next) : ∀ c ∈ s.refs, (s.heap c).wireId ≠ id := by
  rintro c hc rfl
  have hown : Wire.wireIdServerOwned (s.heap c).wireId = true := by
    rw [Wire.wireIdServerOwned_iff]
    omega
  have hle := h.issued c (h.bound c hc) hown
  have hlt := UInt32.lt_iff_toNat_lt.mp hnext
  omega

lemma Held.installs (h : s.Held) (memo : ReplySourceMemo) (hheld : Held { s with memo := memo })
    (src : SocketAddr) {b? : Option Nat} {s' : SessionReader}
    (hins : installUnsolicited { s with memo := memo } src = (b?, s')) :
    Resolves s src (b?.map (⟨·, false⟩), b?.isSome, s') := by
  unfold installUnsolicited at hins
  split at hins
  · cases hins
    exact .unknown memo s.ids hheld (UInt32.le_refl _)
  rename_i hfull
  have hgrant : FlowIds.Grant .rev3 s.ids (s.ids.allocWireId .rev3) := FlowIds.grant_allocWireId
  split at hins
  · rename_i ids halloc
    rw [show s.ids.allocWireId .rev3 = (none, ids) from halloc] at hgrant
    cases hins
    refine .unknown memo ids ?_ hgrant.mono
    exact hheld.congr rfl rfl rfl rfl (fun _ _ => ⟨rfl, rfl⟩) h.waiting hgrant.owner hgrant.mono
  rename_i id ids halloc
  rw [show s.ids.allocWireId .rev3 = (some id, ids) from halloc] at hgrant
  obtain ⟨hlt, hval, -⟩ := hgrant.fresh id rfl
  have hid : id.toNat = 2 * ids.next.toNat + 1 := by
    rw [hval, FlowIds.ownerBit, h.owner]
    rfl
  obtain ⟨entries, hentries⟩ := h.insertFlow_isSome (eq_false_iff.mpr hfull) (s.unsolicited id src)
  have hplaces : s.Places (s.unsolicited id src) entries := by
    rcases h.insertFlow_alloc hentries with ⟨-, c, hc, heq⟩ | hplaces
    · exact absurd heq (h.fresh hid hlt c hc)
    · exact hplaces
  dsimp only at hins
  split at hins
  · rename_i entries' hentries'
    obtain rfl : entries = entries' := some.inj (hentries.symm.trans hentries')
    cases hins
    refine .installed memo id ids entries hplaces hid hlt ?_
    exact hheld.places (hheld.alloc (hgrant.owner.trans h.owner) hgrant.mono fun _ => hid.le)
      ⟨hplaces.fresh, hplaces.length, hplaces.split⟩
  · next hnone => exact absurd (hentries.symm.trans hnone) (some_ne_none entries)

lemma Held.resolves (h : s.Held) (grant : Bool) (src : SocketAddr) :
    Resolves s src (s.resolve grant src) := by
  unfold resolve
  split
  · rename_i v r hc
    obtain ⟨memo, heq, hheld, habout⟩ := h.classified src hc
    rw [heq]
    exact .found v memo (habout v rfl).1 (habout v rfl).2 hheld
  rename_i r hc
  obtain ⟨memo, heq, hheld, -⟩ := h.classified src hc
  rw [heq]
  split
  · cases hins : installUnsolicited { s with memo := memo } src with
    | mk b? s' =>
      have hspec := h.installs memo hheld src hins
      cases b? with
      | none | some _ => exact hspec
  · exact .unknown memo s.ids hheld (UInt32.le_refl _)

@[simp] lemma binding_forceContext (s : SessionReader) (v : SourceVerdict) :
    (s.forceContext v).binding = v.binding := by
  unfold forceContext
  split <;> rfl

/-- A verdict that stays exact is about a flow outside its window. -/
lemma exact_of_forceContext {v : SourceVerdict} (h : (s.forceContext v).exact = true) :
    v.exact = true ∧ s.contextDue (s.heap v.binding).wireId = false := by
  unfold forceContext at h
  split at h
  · cases h
  rename_i hdue
  refine ⟨h, eq_false_iff.mpr fun hd => hdue ?_⟩
  rw [h, hd]
  rfl

lemma Held.syncCtxRepairs (h : s.Held) : s.syncCtxRepairs.Held := by
  unfold SessionReader.syncCtxRepairs
  split
  · exact h
  · exact h.congr rfl rfl rfl rfl (fun _ _ => ⟨rfl, rfl⟩) h.waiting rfl (UInt32.le_refl _)

@[simp] lemma toReplyReader_syncCtxRepairs (s : SessionReader) :
    s.syncCtxRepairs.toReplyReader = s.toReplyReader := by
  unfold syncCtxRepairs
  split <;> rfl

@[simp] lemma allocated_syncCtxRepairs : s.syncCtxRepairs.allocated = s.allocated := by
  unfold syncCtxRepairs
  split <;> rfl

section

variable (h : s.Held) (grant : Bool) (src : SocketAddr)
include h

lemma Held.setPending {pending : Option PendingReply}
    (hp : ∀ p ∈ pending, ∀ v ∈ p.verdict, v.binding < s.allocated) :
    Held { s with pending := pending } :=
  h.congr rfl rfl rfl rfl (fun _ _ => ⟨rfl, rfl⟩) hp rfl (UInt32.le_refl _)

lemma Held.classify : (s.classify grant src).Held := by
  have hres := h.resolves grant src
  unfold SessionReader.classify
  generalize s.resolve grant src = out at hres ⊢
  have hout : out.2.2.Held ∧ ∀ v ∈ out.1, v.binding < out.2.2.allocated := by
    cases hres with
    | found v memo habout hstate hheld =>
      refine ⟨hheld, fun w hw => ?_⟩
      obtain rfl := some.inj hw
      exact h.bound _ habout.mem
    | unknown memo ids hheld hnext =>
      refine ⟨hheld, fun w hw => ?_⟩
      cases hw
    | installed memo id ids entries hplaces hid hnext hheld =>
      refine ⟨hheld, fun w hw => ?_⟩
      obtain rfl := some.inj hw
      exact Nat.lt_succ_self _
  refine hout.1.syncCtxRepairs.setPending fun p hp v hv => ?_
  obtain rfl := some.inj hp
  obtain ⟨w, hw, rfl⟩ := map_eq_some_iff.mp hv
  rw [binding_forceContext, allocated_syncCtxRepairs]
  exact hout.2 w hw

/-- What a context frame changes: the binding learns the source, and has it confirmed with the last
frame of the window. -/
lemma Held.modify {b : Nat} {f : FlowBinding → FlowBinding} (hf : ∀ c, SameIdentity c (f c))
    {ctxSent : Map UInt32 Nat} :
    Held { s with
      heap := Function.update s.heap b (f (s.heap b)), ctxSent := ctxSent, log := log } := by
  refine h.congr rfl rfl rfl rfl (fun c _ => ?_) h.waiting rfl (UInt32.le_refl _)
  by_cases hcb : c = b
  · subst hcb
    dsimp only
    rw [update_self]
    exact hf _
  · dsimp only
    rw [update_of_ne hcb]
    exact ⟨rfl, rfl⟩

lemma Held.noteCtxSent (b : Nat) : (s.noteCtxSent b).Held := by
  unfold SessionReader.noteCtxSent
  dsimp only
  split
  · exact Held.modify (f := .markReplySrcAcked) h fun _ => ⟨rfl, rfl⟩
  · exact h.congr rfl rfl rfl rfl (fun _ _ => ⟨rfl, rfl⟩) h.waiting rfl (UInt32.le_refl _)

lemma Held.deliver (p : PendingReply) (handoff : Handoff) : (s.deliver p handoff).Held := by
  have hlog : ∀ log, Held { s with log := log } := fun log =>
    h.congr rfl rfl rfl rfl (fun _ _ => ⟨rfl, rfl⟩) h.waiting rfl (UInt32.le_refl _)
  unfold SessionReader.deliver
  split
  · exact h
  split
  · split
    · exact h
    · exact hlog _
  split
  · exact Held.noteCtxSent (Held.modify (f := (·.setReplySrc p.src)) h fun _ => ⟨rfl, rfl⟩) _
  · exact h

lemma Held.takeReply : (s.takeReply grant src).Held := by
  unfold SessionReader.takeReply
  split
  · exact h
  · exact h.classify grant src

lemma Held.finish (handoff : Handoff) : (s.finish handoff).Held := by
  unfold SessionReader.finish
  split
  · exact h
  · refine Held.deliver (h.setPending fun p hp => ?_) _ _
    cases hp

lemma Held.next (ev : SessionEvent) : (s.next ev).Held := by
  cases ev with
  | openFlow wireId target resolved => exact h.openFlow wireId target resolved
  | closeFlow wireId => exact h.closeFlow wireId
  | removeFlow wireId => exact h.removeFlow wireId
  | needContext wireId =>
    exact h.congr rfl rfl rfl rfl (fun _ _ => ⟨rfl, rfl⟩) h.waiting rfl (UInt32.le_refl _)
  | allocElsewhere =>
    have hgrant : FlowIds.Grant .rev3 s.ids (s.ids.allocWireId .rev3) := FlowIds.grant_allocWireId
    exact h.congr rfl rfl rfl rfl (fun _ _ => ⟨rfl, rfl⟩) h.waiting hgrant.owner hgrant.mono
  | reply grant src => exact h.takeReply grant src
  | sent handoff => exact h.finish handoff

end

/-- Context frames that the reader has counted for a flow. -/
def counted (s : SessionReader) (id : UInt32) : Nat := (s.ctxSent.lookup id).getD 0

/-- What a context frame that was sent leaves behind. -/
structure Learned (s : SessionReader) (b : Nat) (src : SocketAddr) (s' : SessionReader) : Prop where
  entries : s'.entries = s.entries
  other : ∀ c ≠ b, s'.heap c = s.heap c
  same : SameIdentity (s.heap b) (s'.heap b)
  state : (s'.heap b).state = (s.heap b).state
  replySrc : (s'.heap b).replySrc = some src
  ids : s'.ids = s.ids
  pending : s'.pending = s.pending
  mailbox : s'.ctxNeed = s.ctxNeed ∧ s'.repaired = s.repaired
  log : s'.log = .context (s.heap b).wireId src ::
    ((if (s.heap b).replySrc = some src then [] else [.learned (s.heap b).wireId src]) ++ s.log)
  elsewhere : ∀ id ≠ (s.heap b).wireId, s'.ctxSent.lookup id = s.ctxSent.lookup id
  /-- The window goes on, or its last frame confirms the source. -/
  window : (s'.ctxSent.lookup (s.heap b).wireId = some (s.counted (s.heap b).wireId + 1) ∧
      s.counted (s.heap b).wireId + 1 < r3ContextK ∧ (s'.heap b).replySrcAcked = false) ∨
    (s'.ctxSent.lookup (s.heap b).wireId = none ∧
      r3ContextK ≤ s.counted (s.heap b).wireId + 1 ∧ (s'.heap b).replySrcAcked = true)

lemma learned_learn (s : SessionReader) (b : Nat) (src : SocketAddr) :
    Learned s b src (s.learn b src) := by
  unfold learn noteCtxSent
  dsimp only
  rw [update_self, update_idem]
  have hk : r3ContextK = 2 := rfl
  split
  · rename_i hlast
    refine ⟨rfl, fun c hc => update_of_ne hc _ _, ?_, ?_, ?_, rfl, rfl, ⟨rfl, rfl⟩, rfl,
      fun id hid => lookup_erase_ne hid,
      Or.inr ⟨lookup_erase _ _, hlast.trans (Nat.min_le_left _ _), ?_⟩⟩
    all_goals
      dsimp only
      rw [update_self]
    · exact ⟨rfl, rfl⟩
    all_goals rfl
  rename_i hmore
  have hlt : s.counted (s.heap b).wireId + 1 < r3ContextK := by
    rw [hk] at hmore ⊢
    change ¬ 2 ≤ min (s.counted (s.heap b).wireId + 1) 255 at hmore
    omega
  have hmin : min (s.counted (s.heap b).wireId + 1) 255 = s.counted (s.heap b).wireId + 1 := by
    omega
  refine ⟨rfl, fun c hc => update_of_ne hc _ _, ?_, ?_, ?_, rfl, rfl, ⟨rfl, rfl⟩, rfl,
    fun id hid => lookup_insert_ne hid, Or.inl ⟨?_, hlt, ?_⟩⟩
  case' refine_4 =>
    rw [← hmin]
    exact lookup_insert _
  all_goals
    dsimp only
    rw [update_self]
  · exact ⟨rfl, rfl⟩
  all_goals rfl

lemma lookup_windows (ids : List UInt32) (m : Map UInt32 Nat) (id : UInt32) :
    (ids.foldl (fun m id => m.insert id 0) m).lookup id =
      if id ∈ ids then some 0 else m.lookup id := by
  induction ids generalizing m with
  | nil => rw [if_neg not_mem_nil, foldl_nil]
  | cons first ids ih =>
    rw [foldl_cons, ih]
    by_cases hrest : id ∈ ids
    · rw [if_pos hrest, if_pos (mem_cons_of_mem _ hrest)]
    rw [if_neg hrest]
    by_cases hfirst : id = first
    · rw [hfirst, if_pos mem_cons_self, lookup_insert]
    · rw [if_neg (not_mem_cons_of_ne_of_not_mem hfirst hrest), lookup_insert_ne hfirst]

end SessionReader

end MyQuic2
