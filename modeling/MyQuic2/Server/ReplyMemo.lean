import MyQuic2.Mqp.Flow

/-!
# The memo in front of the reply scan

A reader remembers the last verdicts of the scan over the reverse table, each with
the table it was taken from and with what the chosen flow had learned by then. The
flows are shared: what one of them learns is seen through every table that lists
it, so that a verdict can change through a flow that the memo does not look at.
-/

namespace MyQuic2

open Function Option FlowBinding SessionFlows

/-- A verdict of the scan, with the binding it chose. -/
structure SourceVerdict where
  binding : Nat
  exact : Bool
  deriving DecidableEq

namespace SourceVerdict

def value (heap : Nat → FlowBinding) (v : SourceVerdict) : SourceMatch :=
  if v.exact then .exact (heap v.binding) else .rebind (heap v.binding)

end SourceVerdict

/-- The scan of `SessionFlows.matchSource`, over bindings that are shared. -/
def matchShared (heap : Nat → FlowBinding) (src : SocketAddr) :
    List Nat → Option Nat → Option Nat → Option SourceVerdict
  | [], some b, _ => some ⟨b, true⟩
  | [], none, rebind => rebind.map (⟨·, false⟩)
  | b :: bs, exact, rebind =>
    if (heap b).replySrc = some src then
      if (heap b).replySrcAcked || (heap b).target = .ip src then some ⟨b, true⟩
      else matchShared heap src bs exact (rebind <|> some b)
    else
      matchShared heap src bs
        (if exact.isNone && (heap b).target = .ip src then some b else exact)
        (if rebind.isNone && (heap b).reaches src then some b else rebind)

/-- Sharing is all that the scan adds to the one over values. -/
lemma matchShared_value (heap : Nat → FlowBinding) (src : SocketAddr) (bs : List Nat)
    (exact rebind : Option Nat) :
    (matchShared heap src bs exact rebind).map (·.value heap) =
      matchLoop src (bs.map heap) (exact.map heap) (rebind.map heap) := by
  induction bs generalizing exact rebind with
  | nil =>
    cases exact with
    | some b => rfl
    | none => cases rebind <;> rfl
  | cons b bs ih =>
    rw [matchShared, List.map_cons, matchLoop]
    split
    · split
      · rfl
      · rw [ih]
        cases rebind <;> rfl
    rw [ih]
    congr 1
    · cases exact with
      | some c => rfl
      | none => by_cases h : (heap b).target = .ip src <;> simp [h]
    · cases rebind with
      | some c => rfl
      | none => by_cases h : (heap b).reaches src = true <;> simp [h]

/-- What the scan for a source reads of a binding. -/
structure SameFor (src : SocketAddr) (b b' : FlowBinding) : Prop where
  learned : b'.replySrc = some src ↔ b.replySrc = some src
  acked : b.replySrc = some src → b'.replySrcAcked = b.replySrcAcked
  target : b'.target = b.target
  reaches : b'.reaches src = b.reaches src

lemma SameFor.refl (src : SocketAddr) (b : FlowBinding) : SameFor src b b :=
  ⟨Iff.rfl, fun _ => rfl, rfl, rfl⟩

lemma matchShared_congr {heap heap' : Nat → FlowBinding} {src : SocketAddr} {bs : List Nat}
    (h : ∀ b ∈ bs, SameFor src (heap b) (heap' b)) (exact rebind : Option Nat) :
    matchShared heap' src bs exact rebind = matchShared heap src bs exact rebind := by
  induction bs generalizing exact rebind with
  | nil => cases exact <;> rfl
  | cons b bs ih =>
    obtain ⟨hb, hbs⟩ := List.forall_mem_cons.mp h
    rw [matchShared, matchShared, hb.target, hb.reaches]
    by_cases hsrc : (heap b).replySrc = some src
    · rw [if_pos hsrc, if_pos (hb.learned.mpr hsrc), hb.acked hsrc, ih hbs]
    · rw [if_neg hsrc, if_neg (mt hb.learned.mp hsrc), ih hbs]

/-- One remembered verdict: the source, the table it was taken from, the verdict, and what the
binding had learned. -/
structure ReplySourceMemoEntry where
  src : SocketAddr
  snapshot : Nat
  binding : Nat
  exact : Bool
  observedReplySrc : Option SocketAddr
  observedAcked : Bool

def replySourceMemoSlots : Nat := 8

/-- Slots of the memo, each for the sources that are mapped to it. -/
abbrev ReplySourceMemo := Fin replySourceMemoSlots → Option ReplySourceMemoEntry

namespace ReplySourceMemo

def default : ReplySourceMemo := fun _ => none

/-- The address as one word; the halves of a long one are folded, and read in the byte order of
a little-endian machine. -/
def foldIp : IpAddr → Nat
  | .v4 a => a.bits.toNat
  | .v6 a =>
    let o := fun i => a.octets.getD i 0
    ofBeBytes ([3, 2, 1, 0].map fun i => o i ^^^ o (i + 4) ^^^ o (i + 8) ^^^ o (i + 12))

section

variable (m : ReplySourceMemo) (heap : Nat → FlowBinding) (snapshot : Nat) (src : SocketAddr)

def slotOf : Fin replySourceMemoSlots :=
  let h := foldIp src.ip ^^^ src.port.toNat * 0x9E37
  ⟨(h ^^^ h >>> 16) % replySourceMemoSlots, Nat.mod_lt _ (by decide)⟩

/-- The remembered verdict, while the table is the one it was taken from and its binding is not
closed and has learned nothing since. -/
def lookup : Option SourceVerdict :=
  match m (slotOf src) with
  | none => none
  | some e =>
    if e.src ≠ src ∨ snapshot ≠ e.snapshot ∨ (heap e.binding).state = .closed ∨
        (heap e.binding).replySrc ≠ e.observedReplySrc ∨
        (heap e.binding).replySrcAcked ≠ e.observedAcked then none
    else some ⟨e.binding, e.exact⟩

lemma lookup_eq_some {m : ReplySourceMemo} {heap : Nat → FlowBinding} {snapshot : Nat}
    {src : SocketAddr} {v : SourceVerdict} (h : m.lookup heap snapshot src = some v) :
    ∃ i e, m i = some e ∧ e.src = src ∧ v = ⟨e.binding, e.exact⟩ ∧ snapshot = e.snapshot ∧
      (heap e.binding).state ≠ .closed ∧ (heap e.binding).replySrc = e.observedReplySrc ∧
      (heap e.binding).replySrcAcked = e.observedAcked := by
  unfold lookup at h
  split at h
  · cases h
  rename_i e he
  split at h
  · cases h
  rename_i hvalid
  simp only [not_or, not_not, ne_eq] at hvalid
  obtain ⟨hsrc, hrest⟩ := hvalid
  exact ⟨_, e, he, hsrc, (some.inj h).symm, hrest⟩

def record (snapshot : Nat) (v : SourceVerdict) : ReplySourceMemo :=
  Function.update m (slotOf src) (some
    { src := src
      snapshot := snapshot
      binding := v.binding
      exact := v.exact
      observedReplySrc := (heap v.binding).replySrc
      observedAcked := (heap v.binding).replySrcAcked })

end

/-- A memo holds what was recorded last, and in the other slots what it held. -/
lemma mem_record {m : ReplySourceMemo} {heap : Nat → FlowBinding} {src : SocketAddr}
    {snapshot : Nat} {v : SourceVerdict} {i : Fin replySourceMemoSlots} {e : ReplySourceMemoEntry}
    (h : e ∈ m.record heap src snapshot v i) :
    (i = slotOf src ∧ e = ⟨src, snapshot, v.binding, v.exact, (heap v.binding).replySrc,
      (heap v.binding).replySrcAcked⟩) ∨ e ∈ m i := by
  by_cases hi : i = slotOf src
  · rw [record, hi, update_self] at h
    exact Or.inl ⟨hi, (some.inj h).symm⟩
  · rw [record, update_of_ne hi] at h
    exact Or.inr h

end ReplySourceMemo

/-- The reply reader of a session and the flows it looks at. -/
structure ReplyReader where
  heap : Nat → FlowBinding
  entries : List (Option Nat)
  /-- Number of the publication; every one is a new allocation, and those that the memo holds on
  to are not freed. -/
  snapshot : Nat
  memo : ReplySourceMemo

/-- What happens to a reader and its flows. -/
inductive ReaderEvent where
  | reply (src : SocketAddr)
  | publish (entries : List (Option Nat))
  | setReplySrc (b : Nat) (src : SocketAddr)
  | markReplySrcAcked (b : Nat)
  | markOpen (b : Nat)
  | markClosed (b : Nat)

namespace ReplyReader

section

variable (r : ReplyReader) (src : SocketAddr)

def new (heap : Nat → FlowBinding) (entries : List (Option Nat)) : ReplyReader :=
  ⟨heap, entries, 0, .default⟩

/-- The scan of the published table. -/
def matchSource : Option SourceVerdict :=
  matchShared r.heap src (r.entries.filterMap id) none none

/-- It is the scan of the table with the bindings as they are now. -/
lemma matchSource_value :
    (r.matchSource src).map (·.value r.heap) =
      SessionFlows.matchSource (r.entries.map (Option.map r.heap)) src := by
  have hlive : SessionFlows.live (r.entries.map (Option.map r.heap)) =
      (r.entries.filterMap id).map r.heap := by
    rw [live, List.filterMap_map, List.map_filterMap]
    rfl
  rw [matchSource, matchShared_value, SessionFlows.matchSource, hlive]
  rfl

/-- The scan, where a closed flow is none. -/
def freshMatch : Option SourceVerdict :=
  (r.matchSource src).filter fun v => (r.heap v.binding).state ≠ .closed

/-- The memo first, the scan where it has no verdict. -/
def classifyReplySource : Option SourceVerdict × ReplyReader :=
  match r.memo.lookup r.heap r.snapshot src with
  | some v => (some v, r)
  | none =>
    match r.freshMatch src with
    | some v => (some v, { r with memo := r.memo.record r.heap src r.snapshot v })
    | none => (none, r)

def modify (b : Nat) (f : FlowBinding → FlowBinding) : ReplyReader :=
  { r with heap := Function.update r.heap b (f (r.heap b)) }

def next : ReaderEvent → ReplyReader
  | .reply src => (r.classifyReplySource src).2
  | .publish entries => { r with entries := entries, snapshot := r.snapshot + 1 }
  | .setReplySrc b src => r.modify b (·.setReplySrc src)
  | .markReplySrcAcked b => r.modify b .markReplySrcAcked
  | .markOpen b => r.modify b .markOpen
  | .markClosed b => r.modify b .markClosed

/-- A reply is classified as the scan would. -/
def Transparent : ReaderEvent → Prop
  | .reply src => (r.classifyReplySource src).1 = r.freshMatch src
  | _ => True

/-- A source is not remembered, or with this binding, or the binding is in another table. -/
def Followed (b : Nat) (src : SocketAddr) : Prop :=
  some b ∈ r.entries → ∀ e ∈ r.memo (ReplySourceMemo.slotOf src),
    e.src = src → e.snapshot = r.snapshot → e.binding = b

/-- When a binding learns a source, forgets one for it or has one confirmed, that source is not
remembered with another binding. -/
def Noticed : ReaderEvent → Prop
  | .setReplySrc b src => r.Followed b src ∧ ∀ old ∈ (r.heap b).replySrc, r.Followed b old
  | .markReplySrcAcked b => ∀ src ∈ (r.heap b).replySrc, r.Followed b src
  | _ => True

end

instance (r : ReplyReader) (b : Nat) (src : SocketAddr) : Decidable (r.Followed b src) :=
  inferInstanceAs (Decidable (_ → ∀ e ∈ r.memo (ReplySourceMemo.slotOf src), _ → _ → _))

instance (r : ReplyReader) : (ev : ReaderEvent) → Decidable (r.Noticed ev)
  | .setReplySrc b src =>
    inferInstanceAs (Decidable (r.Followed b src ∧ ∀ old ∈ (r.heap b).replySrc, r.Followed b old))
  | .markReplySrcAcked b =>
    inferInstanceAs (Decidable (∀ src ∈ (r.heap b).replySrc, r.Followed b src))
  | .reply _ | .publish _ | .markOpen _ | .markClosed _ => inferInstanceAs (Decidable True)

/-- The bindings as they were when a verdict was remembered, as far as its own goes. -/
def asObserved (r : ReplyReader) (e : ReplySourceMemoEntry) : Nat → FlowBinding :=
  Function.update r.heap e.binding
    { r.heap e.binding with
      replySrc := e.observedReplySrc
      replySrcAcked := e.observedAcked }

/-- A verdict is in the slot of its source, and is what the scan would find if the binding had
learned what it had then. -/
structure Recalls (r : ReplyReader) (i : Fin replySourceMemoSlots) (e : ReplySourceMemoEntry) :
    Prop where
  slot : ReplySourceMemo.slotOf e.src = i
  snapshot : e.snapshot ≤ r.snapshot
  verdict : e.snapshot = r.snapshot →
    matchShared (r.asObserved e) e.src (r.entries.filterMap id) none none =
      some ⟨e.binding, e.exact⟩

/-- Every remembered verdict is right about the bindings it does not look at. -/
def Sound (r : ReplyReader) : Prop := ∀ i, ∀ e ∈ r.memo i, r.Recalls i e

variable {r : ReplyReader}

lemma new_sound (heap : Nat → FlowBinding) (entries : List (Option Nat)) :
    (new heap entries).Sound := by
  rintro i e ⟨⟩

lemma asObserved_of_unchanged {e : ReplySourceMemoEntry}
    (hsrc : (r.heap e.binding).replySrc = e.observedReplySrc)
    (hacked : (r.heap e.binding).replySrcAcked = e.observedAcked) : r.asObserved e = r.heap := by
  rw [asObserved, ← hsrc, ← hacked]
  exact update_eq_self e.binding r.heap

variable {src : SocketAddr}

section

variable (h : r.Sound) (ev : ReaderEvent)
include h

lemma Sound.lookup {v : SourceVerdict} (hv : r.memo.lookup r.heap r.snapshot src = some v) :
    r.freshMatch src = some v := by
  obtain ⟨i, e, he, rfl, rfl, hsnapshot, hstate, hsrc, hacked⟩ := ReplySourceMemo.lookup_eq_some hv
  have hverdict := (h i e he).verdict hsnapshot.symm
  rw [asObserved_of_unchanged hsrc hacked] at hverdict
  exact filter_eq_some_iff.mpr ⟨hverdict, decide_eq_true hstate⟩

lemma Sound.transparent : r.Transparent ev := by
  cases ev with
  | reply src =>
    change (r.classifyReplySource src).1 = r.freshMatch src
    unfold classifyReplySource
    split
    · next hv => exact (h.lookup hv).symm
    split
    · next hf => exact hf.symm
    · next hf => exact hf.symm
  | publish | setReplySrc | markReplySrcAcked | markOpen | markClosed => trivial

lemma Sound.record {v : SourceVerdict} (hv : r.freshMatch src = some v) :
    Sound { r with memo := r.memo.record r.heap src r.snapshot v } := by
  intro i e he
  rcases ReplySourceMemo.mem_record he with ⟨rfl, rfl⟩ | hold
  · refine ⟨rfl, Nat.le_refl _, fun _ => ?_⟩
    rw [asObserved_of_unchanged rfl rfl]
    exact (filter_eq_some_iff.mp hv).1
  · exact ⟨(h i e hold).slot, (h i e hold).snapshot, (h i e hold).verdict⟩

lemma Sound.reply (src : SocketAddr) : (r.classifyReplySource src).2.Sound := by
  unfold classifyReplySource
  split
  · exact h
  split
  · next hv => exact h.record hv
  · exact h

/-- A table that is published anew is none that a verdict was taken from. -/
lemma Sound.publish (entries : List (Option Nat)) :
    Sound { r with entries := entries, snapshot := r.snapshot + 1 } := by
  intro i e he
  have hle := (h i e he).snapshot
  refine ⟨(h i e he).slot, Nat.le_succ_of_le hle, fun heq => ?_⟩
  exact absurd (heq ▸ hle) (Nat.not_succ_le_self _)

/-- A binding changes in nothing that the verdicts about other bindings rest on. -/
lemma Sound.modify {b : Nat} {f : FlowBinding → FlowBinding}
    (htarget : (f (r.heap b)).target = (r.heap b).target)
    (hresolved : (f (r.heap b)).resolved = (r.heap b).resolved)
    (hothers : some b ∈ r.entries → ∀ i, ∀ e ∈ r.memo i, e.snapshot = r.snapshot →
      e.binding ≠ b → SameFor e.src (r.heap b) (f (r.heap b))) : (r.modify b f).Sound := by
  intro i e he
  refine ⟨(h i e he).slot, (h i e he).snapshot, fun hsnapshot => ?_⟩
  rw [← (h i e he).verdict hsnapshot]
  refine matchShared_congr (fun c hc => ?_) none none
  by_cases hcb : c = b
  · subst hcb
    by_cases hce : c = e.binding
    · -- What the binding has learned does not count: the verdict is about what it had.
      subst hce
      simp only [asObserved, ReplyReader.modify, update_self]
      refine ⟨Iff.rfl, fun _ => rfl, htarget, ?_⟩
      rw [reaches, reaches, resolvedContains, resolvedContains, htarget, hresolved]
    · simp only [asObserved, ReplyReader.modify, update_self, update_of_ne hce]
      obtain ⟨slot, hslot, rfl⟩ := List.mem_filterMap.mp hc
      exact hothers hslot i e he hsnapshot (Ne.symm hce)
  · have hsame : (r.modify b f).heap c = r.heap c := update_of_ne hcb _ _
    by_cases hce : c = e.binding
    · subst hce
      simp only [asObserved, update_self, hsame]
      exact .refl _ _
    · simp only [asObserved, update_of_ne hce, hsame]
      exact .refl _ _

lemma Sound.ne_of_followed {b : Nat} (hf : r.Followed b src) (hb : some b ∈ r.entries)
    {i : Fin replySourceMemoSlots} {e : ReplySourceMemoEntry} (he : e ∈ r.memo i)
    (hsnapshot : e.snapshot = r.snapshot) (hne : e.binding ≠ b) : e.src ≠ src := by
  rintro rfl
  refine hne (hf hb e ?_ rfl hsnapshot)
  rw [(h i e he).slot]
  exact he

lemma Sound.next (hev : r.Noticed ev) : (r.next ev).Sound := by
  cases ev with
  | reply src => exact h.reply src
  | publish entries => exact h.publish entries
  | setReplySrc b src =>
    obtain ⟨hnew, hold⟩ := hev
    refine Sound.modify (f := (·.setReplySrc src)) h rfl rfl fun hb i e he hsnapshot hne => ?_
    have hsrc : e.src ≠ src := h.ne_of_followed hnew hb he hsnapshot hne
    have hlearned : (r.heap b).replySrc ≠ some e.src := fun heq =>
      h.ne_of_followed (hold _ heq) hb he hsnapshot hne rfl
    refine ⟨?_, fun heq => absurd heq hlearned, rfl, rfl⟩
    exact iff_of_false (fun heq => hsrc (some.inj heq).symm) hlearned
  | markReplySrcAcked b =>
    refine Sound.modify (f := .markReplySrcAcked) h rfl rfl fun hb i e he hsnapshot hne => ?_
    refine ⟨Iff.rfl, fun heq => ?_, rfl, rfl⟩
    exact absurd rfl (h.ne_of_followed (hev _ heq) hb he hsnapshot hne)
  | markOpen b =>
    refine Sound.modify (f := .markOpen) h ?_ ?_ fun _ _ _ _ _ _ => ?_
    · unfold markOpen
      split <;> rfl
    · unfold markOpen
      split <;> rfl
    · unfold markOpen
      split
      · exact ⟨Iff.rfl, fun _ => rfl, rfl, rfl⟩
      · exact .refl _ _
  | markClosed b =>
    exact Sound.modify (f := .markClosed) h rfl rfl fun _ _ _ _ _ _ =>
      ⟨Iff.rfl, fun _ => rfl, rfl, rfl⟩

end

/-- Where no source is remembered with another binding than the one that learns, loses or has it
confirmed, replies are classified as the scan would. -/
theorem memo_transparent (heap : Nat → FlowBinding) (entries : List (Option Nat))
    (es : List ReaderEvent) (h : Along next Noticed (new heap entries) es) :
    Along next Transparent (new heap entries) es :=
  Along.of_invariant (fun _ ev hinv hev => ⟨hinv.transparent ev, hinv.next ev hev⟩)
    (new_sound heap entries) h

/-- A host that answers from a port of its own. -/
def answering : SocketAddr := .v4 (.new 10 0 0 1) 7000

/-- A flow to the host, one to a name that resolves to it, and one to another host. -/
def threeFlows : Nat → FlowBinding
  | 0 => .new 6 1 (.ip (.v4 (.new 10 0 0 1) 5000))
  | 1 => (FlowBinding.new 4 1 (.domain "a" 5000)).setResolved [.v4 (.new 10 0 0 1) 5000]
  | _ => .new 2 1 (.ip (.v4 (.new 10 9 9 9) 53))

/-- The flow to the name learns the source; then the flow to the host takes the slot of a closed
one before it, and learns the source too. -/
def takenOver : List ReaderEvent :=
  [.reply answering, .setReplySrc 1 answering, .markClosed 2, .publish [some 0, some 1],
    .reply answering, .setReplySrc 0 answering, .reply answering]

/-- The confirmation of the flow that the memo names is noticed. -/
theorem memo_transparent_taken_over :
    let es := takenOver ++ [.markReplySrcAcked 0, .reply answering, .reply answering]
    Along next Noticed (new threeFlows [some 2, some 1]) es ∧
      Along next Transparent (new threeFlows [some 2, some 1]) es :=
  ⟨by decide +kernel, memo_transparent threeFlows [some 2, some 1] _ (by decide +kernel)⟩

/-- The confirmation of the other flow that learned the source is not: the memo asks for a
binding frame of the first, and the scan would compress for the second. -/
theorem memo_hides_late_ack :
    let r := after next (new threeFlows [some 2, some 1]) (takenOver ++ [.markReplySrcAcked 1])
    (r.classifyReplySource answering).1 = some ⟨0, false⟩ ∧
      r.freshMatch answering = some ⟨1, true⟩ := by
  decide +kernel

end ReplyReader

end MyQuic2
