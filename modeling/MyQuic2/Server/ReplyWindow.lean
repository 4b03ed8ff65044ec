import MyQuic2.Server.ReaderInvariant

/-!
# No bare id before its context

A client that has not learned the source of a flow cannot deliver a frame that
names the flow alone. The reader may compress once it has sent the context often
enough since the source was learned, or since the peer asked for it again. The
history of the contexts is compared with the counters that the reader goes by.
-/

namespace MyQuic2

open Option SessionReader Wire

/-- Context frames sent with an id and a source since that source was last learned or the peer's
request for the flow taken up. -/
def told (id : UInt32) (src : SocketAddr) : List WindowEntry → Nat
  | [] => 0
  | .context id' src' :: log => (if id' = id ∧ src' = src then 1 else 0) + told id src log
  | .learned id' src' :: log => if id' = id ∧ src' = src then 0 else told id src log
  | .repaired id' :: log => if id' = id then 0 else told id src log
  | .steady _ _ :: log => told id src log

lemma told_repaired (id : UInt32) (src : SocketAddr) (ids : List UInt32) (log : List WindowEntry)
    (h : id ∉ ids) : told id src (ids.map .repaired ++ log) = told id src log := by
  induction ids with
  | nil => rfl
  | cons id' ids ih =>
    have hne : id' ≠ id := Ne.symm (List.ne_of_not_mem_cons h)
    rw [List.map_cons, List.cons_append, told, if_neg hne, ih (List.not_mem_of_not_mem_cons h)]

namespace FlowBinding

variable (b : FlowBinding) (src : SocketAddr)

/-- The client cannot derive the source from its own target: the flow is the server's, or its
target is not the source. -/
def Underivable : Prop :=
  ¬ (wireIdServerOwned b.wireId = false ∧ b.target = .ip src)

/-- The table would compress a reply that the client cannot attribute by itself. -/
def Compresses : Prop :=
  (b.replySrc = some src ∧ b.replySrcAcked = true ∨ b.target = .ip src) ∧ b.Underivable src

end FlowBinding

namespace SessionReader

variable {s s' : SessionReader}

/-- A bare id is handed over only for a source that was told often enough. -/
def Announced (s : SessionReader) : SessionEvent → Prop
  | .sent handoff => handoff ≠ .dropped → ∀ p ∈ s.pending, ∀ v ∈ p.verdict, v.exact = true →
      (s.heap v.binding).Underivable p.src → r3ContextK ≤ told (s.heap v.binding).wireId p.src s.log
  | _ => True

/-- The list of repairs that is taken up names every flow in its window that would be compressed
without it; the context of a flow that was opened for a reply is sent with that reply; and a
context with a new source is sent for a client's flow only, outside its window. -/
def Orderly (s : SessionReader) : SessionEvent → Prop
  | .reply _ _ => s.pending = none → s.ctxNeedEpoch ≠ s.ctxEpoch → ∀ b ∈ s.refs,
      (s.ctxSent.lookup (s.heap b).wireId).isSome = true → (s.heap b).wireId ∈ s.ctxNeed ∨
        wireIdServerOwned (s.heap b).wireId = false ∧ (s.heap b).replySrcAcked = false
  | .sent handoff => ∀ p ∈ s.pending, ∀ v ∈ p.verdict, v.exact = false →
      (p.installed = true → handoff = .taken) ∧
        (handoff = .taken → (s.heap v.binding).replySrc ≠ some p.src →
          wireIdServerOwned (s.heap v.binding).wireId = false ∧
            s.counted (s.heap v.binding).wireId = 0)
  | _ => True

instance (b : FlowBinding) (src : SocketAddr) : Decidable (b.Underivable src) :=
  inferInstanceAs (Decidable (¬ (_ ∧ _)))

instance (s : SessionReader) : (ev : SessionEvent) → Decidable (s.Announced ev)
  | .sent handoff =>
    inferInstanceAs (Decidable (handoff ≠ .dropped → ∀ p ∈ s.pending, ∀ v ∈ p.verdict, _ → _ → _))
  | .openFlow _ _ _ | .closeFlow _ | .removeFlow _ | .needContext _ | .allocElsewhere
  | .reply _ _ => inferInstanceAs (Decidable True)

instance (s : SessionReader) : (ev : SessionEvent) → Decidable (s.Orderly ev)
  | .reply _ _ => inferInstanceAs (Decidable (_ → _ → ∀ b ∈ s.refs, _ → _))
  | .sent _ => inferInstanceAs (Decidable (∀ p ∈ s.pending, ∀ v ∈ p.verdict, _ → _ ∧ (_ → _ → _)))
  | .openFlow _ _ _ | .closeFlow _ | .removeFlow _ | .needContext _
  | .allocElsewhere => inferInstanceAs (Decidable True)

/-- The table compresses only what was told often enough or is still in its window, except for
some flows; no window is ahead of what was told; the flows of the server answer from their
targets; and nothing is counted for an id that was not handed out. -/
structure Warned (except : Nat → Prop) (s : SessionReader) : Prop where
  warned : ∀ b ∈ s.refs, ¬ except b → ∀ src, (s.heap b).Compresses src →
    r3ContextK ≤ told (s.heap b).wireId src s.log ∨ s.contextDue (s.heap b).wireId = true
  behind : ∀ b ∈ s.refs, ∀ src, (s.heap b).replySrc = some src →
    s.counted (s.heap b).wireId ≤ told (s.heap b).wireId src s.log
  own : ∀ b ∈ s.refs, wireIdServerOwned (s.heap b).wireId = true →
    ∃ src, (s.heap b).target = .ip src ∧ (s.heap b).replySrc = some src
  unused : ∀ id, wireIdServerOwned id = true → 0 < s.counted id →
    id.toNat ≤ 2 * s.ids.next.toNat + 1

/-- A pending verdict that is exact was told often enough, and a flow that took the id of a pending
one has learned nothing. -/
structure Waits (s : SessionReader) : Prop where
  told : ∀ p ∈ s.pending, ∀ v ∈ p.verdict, v.exact = true →
    (s.heap v.binding).Underivable p.src →
      r3ContextK ≤ MyQuic2.told (s.heap v.binding).wireId p.src s.log
  sole : ∀ p ∈ s.pending, ∀ v ∈ p.verdict, ∀ b ∈ s.refs, b ≠ v.binding →
    (s.heap b).wireId = (s.heap v.binding).wireId → (s.heap b).replySrc = none

/-- The pending reply opened the flow. -/
def Installing (s : SessionReader) (b : Nat) : Prop :=
  ∃ p ∈ s.pending, p.installed = true ∧ p.verdict = some ⟨b, false⟩

/-- Two bindings agree in what the window is about. -/
structure SameWindow (b b' : FlowBinding) : Prop extends SameIdentity b b' where
  replySrc : b'.replySrc = b.replySrc
  replySrcAcked : b'.replySrcAcked = b.replySrcAcked

lemma SameWindow.refl (b : FlowBinding) : SameWindow b b := ⟨⟨rfl, rfl⟩, rfl, rfl⟩

variable {b : FlowBinding} {src : SocketAddr} {except : Nat → Prop} {id id' : UInt32}

lemma SameWindow.underivable {b' : FlowBinding} (h : SameWindow b b') (hb : b'.Underivable src) :
    b.Underivable src := by
  unfold FlowBinding.Underivable at hb ⊢
  rwa [h.wireId, h.target] at hb

lemma SameWindow.compresses {b' : FlowBinding} (h : SameWindow b b') (hb : b'.Compresses src) :
    b.Compresses src := by
  obtain ⟨hknown, hunder⟩ := hb
  rw [h.replySrc, h.replySrcAcked, h.target] at hknown
  exact ⟨hknown, h.underivable hunder⟩

/-- A new flow of the client is no concern of the window. -/
lemma not_compresses_of_new (hsrc : b.replySrc = none)
    (hclient : wireIdServerOwned b.wireId = false) : ¬ b.Compresses src := by
  rintro ⟨⟨hlearned, -⟩ | htarget, hunder⟩
  · rw [hsrc] at hlearned
    cases hlearned
  · exact hunder ⟨hclient, htarget⟩

section

variable (hs : s.Held) (hrefs : ∀ b ∈ s'.refs, b ∈ s.refs ∨ (s'.heap b).replySrc = none ∧
    wireIdServerOwned (s'.heap b).wireId = false)
  (hheap : ∀ b < s.allocated, SameWindow (s.heap b) (s'.heap b))
include hs hrefs hheap

/-- Steps that send nothing: the bindings stay what they are, and a listed one that was not is a new
flow of the client. -/
lemma Warned.congr (h : s.Warned except) (hctx : s'.ctxSent = s.ctxSent)
    (hlog : s'.log = s.log) (hids : s.ids.next ≤ s'.ids.next) : s'.Warned except := by
  refine ⟨fun b hb hex src hc => ?_, fun b hb src hsrc => ?_, fun b hb hown => ?_,
    fun id hown hpos => ?_⟩
  · rcases hrefs b hb with hb | ⟨hsrc, hclient⟩
    · have hsame := hheap b (hs.bound b hb)
      have hw := h.warned b hb hex src (hsame.compresses hc)
      rwa [contextDue, hctx, hlog, hsame.wireId]
    · exact absurd hc (not_compresses_of_new hsrc hclient)
  · rcases hrefs b hb with hb | ⟨hnone, -⟩
    · have hsame := hheap b (hs.bound b hb)
      rw [hsame.replySrc] at hsrc
      rw [counted, hctx, hlog, hsame.wireId]
      exact h.behind b hb src hsrc
    · rw [hnone] at hsrc
      cases hsrc
  · rcases hrefs b hb with hb | ⟨-, hclient⟩
    · have hsame := hheap b (hs.bound b hb)
      rw [hsame.wireId] at hown
      rw [hsame.target, hsame.replySrc]
      exact h.own b hb hown
    · exact absurd hown (Bool.eq_false_iff.mp hclient)
  · rw [counted, hctx] at hpos
    have hle := h.unused id hown hpos
    have hnext := UInt32.le_iff_toNat_le.mp hids
    omega

lemma Waits.congr (h : s.Waits) (hpending : s'.pending = s.pending) (hlog : s'.log = s.log) :
    s'.Waits := by
  refine ⟨fun p hp v hv hexact hunder => ?_, fun p hp v hv b hb hne hid => ?_⟩
  · rw [hpending] at hp
    have hsame := hheap _ (hs.waiting p hp v hv)
    rw [hlog, hsame.wireId]
    exact h.told p hp v hv hexact (hsame.underivable hunder)
  rw [hpending] at hp
  rcases hrefs b hb with hb | ⟨hnone, -⟩
  · have hsame := hheap b (hs.bound b hb)
    have hsame' := hheap _ (hs.waiting p hp v hv)
    rw [hsame.replySrc]
    refine h.sole p hp v hv b hb hne ?_
    rw [← hsame.wireId, ← hsame'.wireId]
    exact hid
  · exact hnone

end

lemma Warned.mono {except' : Nat → Prop} (h : s.Warned except) (hle : ∀ b, except b → except' b) :
    s.Warned except' :=
  ⟨fun b hb hex => h.warned b hb (mt (hle b) hex), h.behind, h.own, h.unused⟩

variable {log : List WindowEntry} {src' : SocketAddr}

lemma told_learned_of_ne (h : id' ≠ id) :
    told id src (.learned id' src' :: log) = told id src log := by
  rw [told, if_neg fun hboth => h hboth.1]

/-- A flow that is opened for a reply waits for its first context. -/
lemma Warned.withUnsolicited (hs : s.Held) (h : s.Warned fun _ => False) {memo : ReplySourceMemo}
    {ids : FlowIds} {entries : List (Option Nat)}
    (hplaces : s.Places (s.unsolicited id src) entries) (hid : id.toNat = 2 * ids.next.toNat + 1)
    (hnext : s.ids.next < ids.next) :
    (s.withUnsolicited memo id ids src entries).Warned (· = s.allocated) := by
  have hlt := UInt32.lt_iff_toNat_lt.mp hnext
  have hown : wireIdServerOwned id = true := by
    rw [wireIdServerOwned_iff]
    omega
  have hself : (s.withUnsolicited memo id ids src entries).heap s.allocated =
      s.unsolicited id src := s.heap_alloc_self _
  have hheap : ∀ b < s.allocated,
      (s.withUnsolicited memo id ids src entries).heap b = s.heap b := fun b hb =>
    s.heap_alloc_of_lt _ hb
  have hzero : s.counted id = 0 := by
    refine Nat.eq_zero_of_not_pos fun hpos => ?_
    have hle := h.unused id hown hpos
    omega
  refine ⟨fun b hb hex src' hc => ?_, fun b hb src' hsrc => ?_, fun b hb hown' => ?_,
    fun id' hown' hpos => ?_⟩
  · have hb' : b ∈ s.refs := (hplaces.mem hb).resolve_left hex
    have hne : id ≠ (s.heap b).wireId := Ne.symm (hplaces.fresh b hb')
    rw [hheap b (hs.bound b hb')] at hc ⊢
    have hw := h.warned b hb' not_false src' hc
    rw [← told_learned_of_ne hne] at hw
    exact hw
  · rcases hplaces.mem hb with rfl | hb'
    · rw [hself]
      change s.counted id ≤ _
      rw [hzero]
      exact Nat.zero_le _
    have hne : id ≠ (s.heap b).wireId := Ne.symm (hplaces.fresh b hb')
    rw [hheap b (hs.bound b hb')] at hsrc ⊢
    have hle := h.behind b hb' src' hsrc
    rw [← told_learned_of_ne hne] at hle
    exact hle
  · rcases hplaces.mem hb with rfl | hb'
    · rw [hself]
      exact ⟨src, rfl, rfl⟩
    · rw [hheap b (hs.bound b hb')] at hown' ⊢
      exact h.own b hb' hown'
  · have hle := h.unused id' hown' hpos
    change id'.toNat ≤ 2 * ids.next.toNat + 1
    omega

/-- Repairs start new windows, and end only those that nothing depends on. -/
lemma Warned.syncCtxRepairs (h : s.Warned except)
    (hnamed : s.ctxNeedEpoch ≠ s.ctxEpoch → ∀ b ∈ s.refs, ¬ except b →
      (s.ctxSent.lookup (s.heap b).wireId).isSome = true → (s.heap b).wireId ∈ s.ctxNeed ∨
        wireIdServerOwned (s.heap b).wireId = false ∧ (s.heap b).replySrcAcked = false) :
    s.syncCtxRepairs.Warned except := by
  unfold SessionReader.syncCtxRepairs
  split
  · exact h
  rename_i hepoch
  have hlookup : ∀ id, (s.ctxNeed.foldl (fun m id => m.insert id 0) (∅ : Map UInt32 Nat)).lookup
      id = if id ∈ s.ctxNeed then some 0 else none := fun id => lookup_windows _ _ _
  have hzero : ∀ id, ((s.ctxNeed.foldl (fun m id => m.insert id 0)
      (∅ : Map UInt32 Nat)).lookup id).getD 0 = 0 := by
    intro id
    rw [hlookup]
    split <;> rfl
  refine ⟨fun b hb hex src hc => ?_, fun b hb src hsrc => ?_, h.own, fun id hown hpos => ?_⟩
  · by_cases hmem : (s.heap b).wireId ∈ s.ctxNeed
    · right
      rw [contextDue, hlookup, if_pos hmem]
      rfl
    left
    rw [told_repaired _ _ _ _ hmem]
    refine (h.warned b hb hex src hc).resolve_right fun hdue => ?_
    -- The window is dropped: then the client's flow waits for its source to be confirmed.
    have hsome : (s.ctxSent.lookup (s.heap b).wireId).isSome = true := by
      rw [contextDue] at hdue
      cases hl : s.ctxSent.lookup (s.heap b).wireId with
      | none =>
        rw [hl] at hdue
        cases hdue
      | some n => rfl
    obtain ⟨hclient, hacked⟩ := (hnamed hepoch b hb hex hsome).resolve_left hmem
    rcases hc with ⟨⟨-, hc⟩ | htarget, hunder⟩
    · rw [hacked] at hc
      cases hc
    · exact hunder ⟨hclient, htarget⟩
  · rw [counted, hzero]
    exact Nat.zero_le _
  · rw [counted, hzero] at hpos
    exact absurd hpos (Nat.lt_irrefl 0)

/-- What the flow was told once the frame is in the log. -/
lemma told_learn (known : Prop) [Decidable known] :
    told id src (.context id src :: ((if known then [] else [.learned id src]) ++ log)) =
      1 + if known then told id src log else 0 := by
  rw [told, if_pos ⟨rfl, rfl⟩]
  split
  · rfl
  · rw [List.singleton_append, told, if_pos ⟨rfl, rfl⟩]

lemma told_learn_of_ne (h : id' ≠ id) (known : Prop) [Decidable known] :
    told id src (.context id' src' :: ((if known then [] else [.learned id' src']) ++ log)) =
      told id src log := by
  rw [told, if_neg fun hboth => h hboth.1, Nat.zero_add]
  split
  · rfl
  · exact told_learned_of_ne h

section

variable {b c : Nat} (h : s.Warned (· = b))
  (hsole : ∀ c ∈ s.refs, c ≠ b → (s.heap c).wireId = (s.heap b).wireId →
    (s.heap c).replySrc = none)
  (hnew : (s.heap b).replySrc ≠ some src → wireIdServerOwned (s.heap b).wireId = false ∧
    s.counted (s.heap b).wireId = 0)
  (hl : Learned s b src s')
include h

include hnew in
/-- The source of a frame for a flow of the server is its target. -/
lemma Warned.source_of_server (hb : b ∈ s.refs)
    (hown : wireIdServerOwned (s.heap b).wireId = true) : (s.heap b).target = .ip src := by
  obtain ⟨own, htarget, hsrc⟩ := h.own b hb hown
  by_cases hknown : (s.heap b).replySrc = some src
  · rw [htarget, some.inj (hsrc.symm.trans hknown)]
  · rw [(hnew hknown).1] at hown
    cases hown

include hl

include hnew in
/-- What was told of the source is ahead of the window, this frame included. -/
lemma Warned.counted_lt_told (hb : b ∈ s.refs) :
    s.counted (s.heap b).wireId < told (s.heap b).wireId src s'.log := by
  rw [hl.log, told_learn]
  split
  · rename_i hknown
    have hle := h.behind b hb src hknown
    omega
  · rename_i hknown
    rw [(hnew hknown).2]
    exact Nat.one_pos

include hnew in
/-- The flow of the frame was told often enough, or is still in its window. -/
lemma Warned.learned_self (hb : b ∈ s.refs) :
    (∀ src', (s'.heap b).Compresses src' → r3ContextK ≤ told (s.heap b).wireId src' s'.log ∨
      s'.contextDue (s.heap b).wireId = true) ∧
      s'.counted (s.heap b).wireId ≤ told (s.heap b).wireId src s'.log := by
  have hlt := h.counted_lt_told hnew hl hb
  rcases hl.window with ⟨hwindow, hmore, -⟩ | ⟨hwindow, hlast, -⟩
  · refine ⟨fun src' _ => Or.inr ?_, ?_⟩
    · rw [contextDue, hwindow]
      exact decide_eq_true hmore
    · rw [counted, hwindow]
      exact hlt
  · refine ⟨fun src' hcomp => Or.inl ?_, ?_⟩
    · obtain rfl : src' = src := by
        rcases hcomp with ⟨⟨hlearned, -⟩ | htarget, hunder⟩
        · rw [hl.replySrc] at hlearned
          exact (some.inj hlearned).symm
        rw [FlowBinding.Underivable, hl.same.wireId, not_and] at hunder
        have hserver : wireIdServerOwned (s.heap b).wireId = true :=
          Bool.not_eq_false _ ▸ fun hclient => hunder hclient htarget
        rw [hl.same.target, h.source_of_server hnew hb hserver] at htarget
        exact (TargetAddr.ip.inj htarget).symm
      exact hlast.trans hlt
    · rw [counted, hwindow]
      exact Nat.zero_le _

include hsole in
/-- Nothing changes for another flow. One that took the id over has learned nothing. -/
lemma Warned.learned_other (hc : c ∈ s.refs) (hcb : c ≠ b) (src' : SocketAddr) :
    ((s.heap c).Compresses src' → r3ContextK ≤ told (s.heap c).wireId src' s'.log ∨
      s'.contextDue (s.heap c).wireId = true) ∧ ((s.heap c).replySrc = some src' →
      s'.counted (s.heap c).wireId ≤ told (s.heap c).wireId src' s'.log) := by
  by_cases hid : (s.heap c).wireId = (s.heap b).wireId
  · have hnone := hsole c hc hcb hid
    have hclient : wireIdServerOwned (s.heap c).wireId = false := by
      refine Bool.eq_false_iff.mpr fun hserver => ?_
      obtain ⟨own, -, hsome⟩ := h.own c hc hserver
      rw [hnone] at hsome
      cases hsome
    refine ⟨fun hcomp => absurd hcomp (not_compresses_of_new hnone hclient), fun hsrc => ?_⟩
    rw [hnone] at hsrc
    cases hsrc
  · rw [hl.log, told_learn_of_ne (Ne.symm hid), contextDue, counted, hl.elsewhere _ hid]
    exact ⟨h.warned c hc hcb src', h.behind c hc src'⟩

include hsole hnew in
/-- A context frame warns the client of its flow, and changes nothing for the others. -/
lemma Warned.learned (hissued : wireIdServerOwned (s.heap b).wireId = true →
      (s.heap b).wireId.toNat ≤ 2 * s.ids.next.toNat + 1) : s'.Warned fun _ => False := by
  have hrefs : s'.refs = s.refs := by rw [ReplyReader.refs, ReplyReader.refs, hl.entries]
  refine ⟨fun c hc _ src' hcomp => ?_, fun c hc src' hsrc => ?_, fun c hc hown => ?_,
    fun id hown hpos => ?_⟩
  · rw [hrefs] at hc
    by_cases hcb : c = b
    · subst hcb
      rw [hl.same.wireId]
      exact (h.learned_self hnew hl hc).1 src' hcomp
    · rw [hl.other c hcb] at hcomp ⊢
      exact (h.learned_other hsole hl hc hcb src').1 hcomp
  · rw [hrefs] at hc
    by_cases hcb : c = b
    · subst hcb
      rw [hl.replySrc] at hsrc
      obtain rfl := some.inj hsrc
      rw [hl.same.wireId]
      exact (h.learned_self hnew hl hc).2
    · rw [hl.other c hcb] at hsrc ⊢
      exact (h.learned_other hsole hl hc hcb src').2 hsrc
  · rw [hrefs] at hc
    by_cases hcb : c = b
    · subst hcb
      rw [hl.same.wireId] at hown
      exact ⟨src, by rw [hl.same.target, h.source_of_server hnew hc hown], hl.replySrc⟩
    · rw [hl.other c hcb] at hown ⊢
      exact h.own c hc hown
  · rw [hl.ids]
    by_cases hid : id = (s.heap b).wireId
    · subst hid
      exact hissued hown
    · rw [counted, hl.elsewhere id hid] at hpos
      exact h.unused id hown hpos

end

/-- The invariant of a run. -/
structure Guarded (s : SessionReader) : Prop where
  held : s.Held
  warned : s.Warned s.Installing
  waits : s.Waits

section

variable (h : s.Guarded) (wireId : UInt32) (target : TargetAddr) (resolved : List SocketAddr)
include h

/-- Steps that send nothing and leave the pending reply alone. -/
lemma Guarded.congr (hheld : s'.Held)
    (hrefs : ∀ b ∈ s'.refs, b ∈ s.refs ∨ (s'.heap b).replySrc = none ∧
      wireIdServerOwned (s'.heap b).wireId = false)
    (hheap : ∀ b < s.allocated, SameWindow (s.heap b) (s'.heap b))
    (hpending : s'.pending = s.pending) (hctx : s'.ctxSent = s.ctxSent) (hlog : s'.log = s.log)
    (hids : s.ids.next ≤ s'.ids.next) : s'.Guarded := by
  refine ⟨hheld, ?_, h.waits.congr h.held hrefs hheap hpending hlog⟩
  refine (h.warned.congr h.held hrefs hheap hctx hlog hids).mono fun b hb => ?_
  rw [Installing, hpending]
  exact hb

lemma Guarded.openFlow : (s.openFlow wireId target resolved).Guarded := by
  have hheld := h.held.openFlow wireId target resolved
  have hopens := h.held.opens wireId target resolved
  generalize s.openFlow wireId target resolved = s' at hheld hopens ⊢
  have hheap : ∀ b : FlowBinding, ∀ c < s.allocated,
      SameWindow (s.heap c) ((s.alloc b).heap c) := by
    intro b c hc
    rw [s.heap_alloc_of_lt b hc]
    exact .refl _
  cases hopens with
  | refused => exact h
  | unlisted b hclient | known b hclient =>
    exact h.congr hheld (fun c hc => Or.inl hc) (hheap b) rfl rfl rfl (UInt32.le_refl _)
  | listed b hclient hsrc entries hplaces =>
    refine h.congr hheld (fun c hc => ?_) (hheap b) rfl rfl rfl (UInt32.le_refl _)
    rcases hplaces.mem hc with rfl | hc
    · right
      change ((s.alloc b).heap s.allocated).replySrc = none ∧
        wireIdServerOwned ((s.alloc b).heap s.allocated).wireId = false
      rw [s.heap_alloc_self b]
      exact ⟨hsrc, hclient⟩
    · exact Or.inl hc

lemma Guarded.closeFlow : (s.closeFlow wireId).Guarded := by
  have hheld := h.held.closeFlow wireId
  unfold SessionReader.closeFlow at hheld ⊢
  split at hheld
  · rename_i b hb
    refine h.congr hheld (fun c hc => Or.inl hc) (fun c _ => ?_) rfl rfl rfl (UInt32.le_refl _)
    by_cases hcb : c = b
    · subst hcb
      dsimp only
      rw [Function.update_self]
      exact ⟨⟨rfl, rfl⟩, rfl, rfl⟩
    · dsimp only
      rw [Function.update_of_ne hcb]
      exact .refl _
  · exact h

lemma Guarded.removeFlow : (s.removeFlow wireId).Guarded := by
  obtain ⟨-, hsub, -⟩ := s.without_refs wireId s.entries
  exact h.congr (h.held.removeFlow wireId) (fun c hc => Or.inl (hsub.subset hc))
    (fun _ _ => .refl _) rfl rfl rfl (UInt32.le_refl _)

end

/-- Bindings of the table with one id are one. -/
lemma Held.eq_of_wireId (h : s.Held) {b c : Nat} (hb : b ∈ s.refs) (hc : c ∈ s.refs)
    (hid : (s.heap b).wireId = (s.heap c).wireId) : b = c :=
  List.inj_on_of_nodup_map h.distinct hb hc hid

/-- A verdict of the table that stays exact was told often enough. -/
lemma Warned.told_of_exact (h : s.Warned fun _ => False) {v : SourceVerdict}
    (habout : v.About s.heap src s.refs) (hexact : (s.forceContext v).exact = true)
    (hunder : (s.heap v.binding).Underivable src) :
    r3ContextK ≤ told (s.heap v.binding).wireId src s.log := by
  obtain ⟨hv, hdue⟩ := exact_of_forceContext hexact
  refine (h.warned _ habout.mem not_false src ⟨habout.exact_of hv, hunder⟩).resolve_right ?_
  rw [hdue]
  exact Bool.false_ne_true

lemma Guarded.classify (h : s.Guarded) (grant : Bool) (src : SocketAddr)
    (hpending : s.pending = none) (hnamed : s.Orderly (.reply grant src)) :
    (s.classify grant src).Guarded := by
  have hheld := h.held.classify grant src
  have hres := h.held.resolves grant src
  unfold SessionReader.classify at hheld ⊢
  generalize s.resolve grant src = out at hheld hres ⊢
  have hnone : s.Warned fun _ => False := h.warned.mono fun b hb => by
    obtain ⟨p, hp, -⟩ := hb
    rw [hpending] at hp
    cases hp
  cases hres with
  | found v memo habout hstate hmemo =>
    have hw : Warned (fun _ => False) (syncCtxRepairs { s with memo := memo }) :=
      Warned.syncCtxRepairs ⟨hnone.warned, hnone.behind, hnone.own, hnone.unused⟩
        fun hepoch b hb _ => hnamed hpending hepoch b hb
    have habout' : v.About (syncCtxRepairs { s with memo := memo }).heap src
        (syncCtxRepairs { s with memo := memo }).refs := by
      rw [toReplyReader_syncCtxRepairs]
      exact habout
    refine ⟨hheld, ?_, fun p hp w hv hexact hunder => ?_, fun p hp w hv b hb hne hid => ?_⟩
    · exact Warned.mono ⟨hw.warned, hw.behind, hw.own, hw.unused⟩ fun b hb => hb.elim
    · obtain rfl := some.inj hp
      obtain rfl := some.inj hv
      rw [binding_forceContext] at hunder ⊢
      exact hw.told_of_exact habout' hexact hunder
    · obtain rfl := some.inj hp
      obtain rfl := some.inj hv
      rw [binding_forceContext] at hne hid
      exact absurd (hheld.eq_of_wireId hb habout'.mem hid) hne
  | unknown memo ids hids hnext =>
    have hw : Warned (fun _ => False) (syncCtxRepairs { s with memo := memo, ids := ids }) := by
      refine Warned.syncCtxRepairs ?_ fun hepoch b hb _ => hnamed hpending hepoch b hb
      exact hnone.congr h.held (fun b hb => Or.inl hb) (fun _ _ => .refl _) rfl rfl hnext
    refine ⟨hheld, ?_, fun p hp w hv => ?_, fun p hp w hv => ?_⟩
    · exact Warned.mono ⟨hw.warned, hw.behind, hw.own, hw.unused⟩ fun b hb => hb.elim
    · obtain rfl := some.inj hp
      cases hv
    · obtain rfl := some.inj hp
      cases hv
  | installed memo id ids entries hplaces hid hnext hmemo =>
    have hw : Warned (· = s.allocated)
        (s.withUnsolicited memo id ids src entries).syncCtxRepairs := by
      refine (hnone.withUnsolicited h.held hplaces hid hnext).syncCtxRepairs ?_
      intro hepoch b hb hne hsome
      have hb' : b ∈ s.refs := (hplaces.mem hb).resolve_left hne
      have hheap : (s.withUnsolicited memo id ids src entries).heap b = s.heap b :=
        s.heap_alloc_of_lt _ (h.held.bound b hb')
      rw [hheap] at hsome ⊢
      exact hnamed hpending hepoch b hb' hsome
    refine ⟨hheld, ?_, fun p hp w hv hexact => ?_, fun p hp w hv b hb hne hid' => ?_⟩
    · refine Warned.mono ⟨hw.warned, hw.behind, hw.own, hw.unused⟩ fun b hb => ?_
      exact ⟨_, rfl, rfl, by rw [hb]; rfl⟩
    · obtain rfl := some.inj hp
      obtain rfl := some.inj hv
      cases hexact
    · obtain rfl := some.inj hp
      obtain rfl := some.inj hv
      refine absurd (hheld.eq_of_wireId hb ?_ hid') hne
      rw [binding_forceContext, toReplyReader_syncCtxRepairs]
      exact hplaces.mem_self

lemma waits_of_none (h : s.pending = none) : s.Waits := by
  refine ⟨fun p hp => ?_, fun p hp => ?_⟩
  · rw [h] at hp
    cases hp
  · rw [h] at hp
    cases hp

/-- The reply is done with, and every flow is warned of. -/
lemma Guarded.of_done (hheld : s'.Held) (hpending : s'.pending = none)
    (hw : s'.Warned fun _ => False) : s'.Guarded :=
  ⟨hheld, hw.mono fun _ hb => hb.elim, waits_of_none hpending⟩

section

variable (h : s.Guarded) (ev : SessionEvent)
include h

lemma Guarded.deliver {p : PendingReply} (hp : s.pending = some p) (handoff : Handoff)
    (hsent : s.Orderly (.sent handoff)) :
    ({ s with pending := none }.deliver p handoff).Guarded := by
  have hheld : Held { s with pending := none } := h.held.setPending fun q hq => by cases hq
  -- Unless the reply opened its flow, every flow was warned of before.
  have hwarned : (∀ b, p.installed = true → p.verdict ≠ some ⟨b, false⟩) →
      Warned (fun _ => False) { s with pending := none } := by
    intro hnot
    have hmono : s.Warned fun _ => False := h.warned.mono fun b hb => by
      obtain ⟨q, hq, hinst, hverdict⟩ := hb
      obtain rfl : p = q := some.inj (hp.symm.trans hq)
      exact hnot b hinst hverdict
    exact ⟨hmono.warned, hmono.behind, hmono.own, hmono.unused⟩
  unfold SessionReader.deliver
  cases hv : p.verdict with
  | none =>
    refine .of_done hheld rfl (hwarned fun b _ heq => ?_)
    rw [hv] at heq
    cases heq
  | some v =>
    dsimp only
    split
    · rename_i hexact
      have hw := hwarned fun b _ heq => by
        obtain rfl := some.inj (hv.symm.trans heq)
        cases hexact
      split
      · exact .of_done hheld rfl hw
      refine .of_done ?_ rfl ⟨hw.warned, hw.behind, hw.own, hw.unused⟩
      exact hheld.congr rfl rfl rfl rfl (fun _ _ => ⟨rfl, rfl⟩) hheld.waiting rfl (UInt32.le_refl _)
    rename_i hexact
    obtain ⟨hinst, hnew⟩ := hsent p hp v hv (Bool.eq_false_iff.mpr hexact)
    split
    · rename_i htaken
      have hl := learned_learn { s with pending := none } v.binding p.src
      have hheld' := hheld.deliver p handoff
      unfold SessionReader.deliver at hheld'
      rw [hv] at hheld'
      simp only [hexact, htaken, if_true, if_false, Bool.false_eq_true] at hheld'
      refine .of_done hheld' hl.pending ?_
      have hw : Warned (· = v.binding) { s with pending := none } := by
        have hmono : s.Warned (· = v.binding) := h.warned.mono fun b hb => by
          obtain ⟨q, hq, -, hverdict⟩ := hb
          obtain rfl : p = q := some.inj (hp.symm.trans hq)
          obtain rfl := some.inj (hv.symm.trans hverdict)
          rfl
        exact ⟨hmono.warned, hmono.behind, hmono.own, hmono.unused⟩
      exact hw.learned (h.waits.sole p hp v hv) (hnew htaken) hl
        (h.held.issued _ (h.held.waiting p hp v hv))
    · rename_i htaken
      exact .of_done hheld rfl (hwarned fun b hb _ => htaken (hinst hb))

lemma Guarded.finish (handoff : Handoff) (hsent : s.Orderly (.sent handoff)) :
    (s.finish handoff).Guarded := by
  unfold SessionReader.finish
  cases hp : s.pending with
  | none => exact h
  | some p => exact h.deliver hp handoff hsent

lemma Guarded.takeReply (grant : Bool) (src : SocketAddr)
    (hnamed : s.Orderly (.reply grant src)) : (s.takeReply grant src).Guarded := by
  unfold SessionReader.takeReply
  split
  · exact h
  · next hp => exact h.classify grant src (not_isSome_iff_eq_none.mp hp) hnamed

lemma Guarded.next (hev : s.Orderly ev) : (s.next ev).Guarded := by
  cases ev with
  | openFlow wireId target resolved => exact h.openFlow wireId target resolved
  | closeFlow wireId => exact h.closeFlow wireId
  | removeFlow wireId => exact h.removeFlow wireId
  | needContext wireId =>
    exact h.congr (h.held.next (.needContext wireId)) (fun b hb => Or.inl hb)
      (fun _ _ => .refl _) rfl rfl rfl (UInt32.le_refl _)
  | allocElsewhere =>
    exact h.congr (h.held.next .allocElsewhere) (fun b hb => Or.inl hb) (fun _ _ => .refl _)
      rfl rfl rfl FlowIds.grant_allocWireId.mono
  | reply grant src => exact h.takeReply grant src hev
  | sent handoff => exact h.finish handoff hev

lemma Guarded.announced : s.Announced ev := by
  cases ev with
  | sent handoff => exact fun _ => h.waits.told
  | openFlow | closeFlow | removeFlow | needContext | allocElsewhere | reply => trivial

end

end SessionReader

end MyQuic2
