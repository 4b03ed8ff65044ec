import MyQuic2.Server.ReaderInvariant

/-!
# The size of the context windows

The reader counts context frames by flow id and forgets an id when its window ends
or when the peer's repairs replace all windows. A flow that closes inside its window
is not forgotten. While no flow does, the ids are those of live flows or of the last
list of repairs, and both are bounded.
-/

namespace MyQuic2

open Option List

namespace SessionReader

variable {s s' : SessionReader}

/-- A binding is listed and not closed. -/
def Live (s : SessionReader) (b : Nat) : Prop := b ∈ s.refs ∧ (s.heap b).state ≠ .closed

/-- No flow closes inside its window, unless the last repairs named it, nor while a context frame of
it is being sent. -/
def Settled (s : SessionReader) : SessionEvent → Prop
  | .closeFlow id | .removeFlow id => ((s.ctxSent.lookup id).isSome = true → id ∈ s.repaired) ∧
      ∀ p ∈ s.pending, ∀ v ∈ p.verdict, v.exact = false → (s.heap v.binding).wireId ≠ id
  | _ => True

instance (s : SessionReader) : (ev : SessionEvent) → Decidable (s.Settled ev)
  | .closeFlow _ | .removeFlow _ =>
    inferInstanceAs (Decidable (_ ∧ ∀ p ∈ s.pending, ∀ v ∈ p.verdict, _ → _))
  | .openFlow _ _ _ | .needContext _ | .allocElsewhere | .reply _ _
  | .sent _ => inferInstanceAs (Decidable True)

/-- Every window is that of a live flow or was named by the last repairs. -/
structure Bounded (s : SessionReader) : Prop where
  window : ∀ id n, s.ctxSent.lookup id = some n → n < r3ContextK ∧
    ((∃ b, s.Live b ∧ (s.heap b).wireId = id) ∨ id ∈ s.repaired)
  sending : ∀ p ∈ s.pending, ∀ v ∈ p.verdict, v.exact = false → s.Live v.binding
  mailbox : s.ctxNeed.length ≤ ctxNeedCap
  repairs : s.repaired.length ≤ ctxNeedCap

lemma new_bounded (sess : UInt32) : (new sess).Bounded := by
  refine ⟨fun id n hl => ?_, fun p hp => ?_, Nat.zero_le _, Nat.zero_le _⟩
  · cases hl
  · cases hp

/-- Steps that keep the flows in question live and the windows as they are. -/
lemma Bounded.congr (h : s.Bounded)
    (hlive : ∀ b, s.Live b → (s.ctxSent.lookup (s.heap b).wireId).isSome = true →
      (s.heap b).wireId ∉ s.repaired → s'.Live b ∧ (s'.heap b).wireId = (s.heap b).wireId)
    (hsending : ∀ p ∈ s'.pending, ∀ v ∈ p.verdict, v.exact = false → s'.Live v.binding)
    (hctx : s'.ctxSent = s.ctxSent) (hrepaired : s'.repaired = s.repaired)
    (hmailbox : s'.ctxNeed.length ≤ ctxNeedCap) : s'.Bounded := by
  refine ⟨fun id n hl => ?_, hsending, hmailbox, hrepaired ▸ h.repairs⟩
  rw [hctx] at hl
  rw [hrepaired]
  obtain ⟨hlt, ⟨b, hb, rfl⟩ | hmem⟩ := h.window id n hl
  · by_cases hmem : (s.heap b).wireId ∈ s.repaired
    · exact ⟨hlt, Or.inr hmem⟩
    · obtain ⟨hb', hid⟩ := hlive b hb (by rw [hl]; rfl) hmem
      exact ⟨hlt, Or.inl ⟨b, hb', hid⟩⟩
  · exact ⟨hlt, Or.inr hmem⟩

/-- Steps that keep every live flow and the pending reply. -/
lemma Bounded.congr_of_live (h : s.Bounded)
    (hlive : ∀ b, s.Live b → s'.Live b ∧ (s'.heap b).wireId = (s.heap b).wireId)
    (hpending : s'.pending = s.pending) (hctx : s'.ctxSent = s.ctxSent)
    (hrepaired : s'.repaired = s.repaired) (hmailbox : s'.ctxNeed.length ≤ ctxNeedCap) :
    s'.Bounded := by
  refine h.congr (fun b hb _ _ => hlive b hb) (fun p hp v hv hx => ?_) hctx hrepaired hmailbox
  rw [hpending] at hp
  exact (hlive _ (h.sending p hp v hv hx)).1

lemma Bounded.openFlow (hs : s.Held) (h : s.Bounded) (wireId : UInt32) (target : TargetAddr)
    (resolved : List SocketAddr) : (s.openFlow wireId target resolved).Bounded := by
  have hopens := hs.opens wireId target resolved
  generalize s.openFlow wireId target resolved = s' at hopens ⊢
  have hsame : ∀ (b : FlowBinding) (c : Nat), c ∈ s.refs → (s.alloc b).heap c = s.heap c :=
    fun b c hc => s.heap_alloc_of_lt b (hs.bound c hc)
  -- A binding that is made leaves those that are listed as they are.
  have hkeep : ∀ (b : FlowBinding) (entries : List (Option Nat)),
      (∀ c ∈ s.refs, (s.heap c).state ≠ .closed → c ∈ entries.filterMap id) →
      ∀ c, s.Live c → ((s.alloc b).publish entries).Live c ∧
        (((s.alloc b).publish entries).heap c).wireId = (s.heap c).wireId := by
    intro b entries hentries c hc
    have heq : ((s.alloc b).publish entries).heap c = s.heap c := hsame b c hc.1
    rw [Live, heq]
    exact ⟨⟨hentries c hc.1 hc.2, hc.2⟩, rfl⟩
  cases hopens with
  | refused => exact h
  | unlisted b hclient | known b hclient =>
    exact h.congr_of_live (hkeep b s.entries fun c hc _ => hc) rfl rfl rfl h.mailbox
  | listed b hclient hsrc entries hplaces =>
    exact h.congr_of_live (hkeep b entries fun c hc hstate => hplaces.mem_of_open hc hstate)
      rfl rfl rfl h.mailbox

lemma Bounded.closeFlow (h : s.Bounded) {wireId : UInt32} (hev : s.Settled (.closeFlow wireId)) :
    (s.closeFlow wireId).Bounded := by
  obtain ⟨hwindow, hpending⟩ := hev
  unfold SessionReader.closeFlow
  split
  · rename_i b hb
    have hid : (s.heap b).wireId = wireId := by
      have hfound := find?_some hb
      exact of_decide_eq_true hfound
    have hkeep : ∀ c, c ≠ b → s.Live c →
        Live { s with heap := Function.update s.heap b (s.heap b).markClosed } c ∧
          (Function.update s.heap b (s.heap b).markClosed c).wireId = (s.heap c).wireId := by
      intro c hc hlive
      rw [Live]
      dsimp only
      rw [Function.update_of_ne hc]
      exact ⟨hlive, rfl⟩
    refine h.congr (fun c hc hsome hmem => hkeep c ?_ hc) (fun p hp v hv hx => ?_) rfl rfl h.mailbox
    · rintro rfl
      rw [hid] at hsome hmem
      exact hmem (hwindow hsome)
    · refine (hkeep _ ?_ (h.sending p hp v hv hx)).1
      intro heq
      exact hpending p hp v hv hx (heq ▸ hid)
  · exact h

lemma Bounded.removeFlow (h : s.Bounded) {wireId : UInt32}
    (hev : s.Settled (.removeFlow wireId)) : (s.removeFlow wireId).Bounded := by
  obtain ⟨hwindow, hpending⟩ := hev
  obtain ⟨-, -, hkept⟩ := s.without_refs wireId s.entries
  have hkeep : ∀ c, (s.heap c).wireId ≠ wireId → s.Live c → (s.removeFlow wireId).Live c :=
    fun c hc hlive => ⟨hkept c hlive.1 hc, hlive.2⟩
  refine h.congr (fun c hc hsome hmem => ⟨hkeep c ?_ hc, rfl⟩) (fun p hp v hv hx => ?_) rfl rfl
    h.mailbox
  · rintro hid
    rw [hid] at hsome hmem
    exact hmem (hwindow hsome)
  · exact hkeep _ (hpending p hp v hv hx) (h.sending p hp v hv hx)

lemma Bounded.noteNeedContext (h : s.Bounded) (wireId : UInt32) :
    (s.noteNeedContext wireId).Bounded := by
  refine h.congr_of_live (fun _ hb => ⟨hb, rfl⟩) rfl rfl rfl ?_
  unfold SessionReader.noteNeedContext
  have hcap : ctxNeedCap = 64 := rfl
  have hle := h.mailbox
  dsimp only
  split
  · split
    · exact Nat.zero_le _
    · exact Nat.le_of_ble_eq_true rfl
  split
  · exact hle
  · rw [length_append, length_singleton]
    omega

lemma Bounded.syncCtxRepairs (h : s.Bounded) : s.syncCtxRepairs.Bounded := by
  unfold SessionReader.syncCtxRepairs
  split
  · exact h
  refine ⟨fun id n hl => ?_, h.sending, h.mailbox, h.mailbox⟩
  rw [lookup_windows] at hl
  split at hl
  · rename_i hmem
    obtain rfl := some.inj hl
    exact ⟨by decide, Or.inr hmem⟩
  · cases hl

lemma Bounded.setPending (h : s.Bounded) {pending : Option PendingReply}
    (hp : ∀ p ∈ pending, ∀ v ∈ p.verdict, v.exact = false → s.Live v.binding) :
    Bounded { s with pending := pending } :=
  h.congr (fun _ hb _ _ => ⟨hb, rfl⟩) hp rfl rfl h.mailbox

lemma Bounded.classify (hs : s.Held) (h : s.Bounded) (grant : Bool) (src : SocketAddr) :
    (s.classify grant src).Bounded := by
  have hres := hs.resolves grant src
  unfold SessionReader.classify
  generalize s.resolve grant src = out at hres ⊢
  have hout : out.2.2.Bounded ∧ ∀ v ∈ out.1, out.2.2.Live v.binding := by
    cases hres with
    | found v memo habout hstate hheld =>
      refine ⟨h.congr_of_live (fun _ hb => ⟨hb, rfl⟩) rfl rfl rfl h.mailbox, fun w hw => ?_⟩
      obtain rfl := some.inj hw
      exact ⟨habout.mem, hstate⟩
    | unknown memo ids hheld hnext =>
      refine ⟨h.congr_of_live (fun _ hb => ⟨hb, rfl⟩) rfl rfl rfl h.mailbox, fun w hw => ?_⟩
      cases hw
    | installed memo id ids entries hplaces hid hnext hheld =>
      refine ⟨h.congr_of_live (fun c hc => ?_) rfl rfl rfl h.mailbox, fun w hw => ?_⟩
      · have heq : (s.withUnsolicited memo id ids src entries).heap c = s.heap c :=
          s.heap_alloc_of_lt _ (hs.bound c hc.1)
        rw [Live, heq]
        exact ⟨⟨hplaces.mem_of_open hc.1 hc.2, hc.2⟩, rfl⟩
      · obtain rfl := some.inj hw
        have heq : (s.withUnsolicited memo id ids src entries).heap s.allocated =
            s.unsolicited id src := s.heap_alloc_self _
        refine ⟨hplaces.mem_self, ?_⟩
        rw [heq]
        exact nofun
  refine hout.1.syncCtxRepairs.setPending fun p hp v hv _ => ?_
  obtain rfl := some.inj hp
  obtain ⟨w, hw, rfl⟩ := map_eq_some_iff.mp hv
  rw [binding_forceContext, Live, toReplyReader_syncCtxRepairs]
  exact hout.2 w hw

/-- A context frame of a live flow opens, continues or ends its window. -/
lemma Bounded.learned (h : s.Bounded) {b : Nat} {src : SocketAddr} (hb : s.Live b)
    (hpending : s.pending = none) (hl : Learned s b src s') : s'.Bounded := by
  have hkeep : ∀ c, s.Live c → s'.Live c ∧ (s'.heap c).wireId = (s.heap c).wireId := by
    intro c hc
    have hrefs : s'.refs = s.refs := by rw [ReplyReader.refs, ReplyReader.refs, hl.entries]
    rw [Live, hrefs]
    by_cases hcb : c = b
    · subst hcb
      rw [hl.state]
      exact ⟨hc, hl.same.wireId⟩
    · rw [hl.other c hcb]
      exact ⟨hc, rfl⟩
  refine ⟨fun id n hlookup => ?_, fun p hp => ?_, hl.mailbox.1 ▸ h.mailbox,
    hl.mailbox.2 ▸ h.repairs⟩
  · by_cases hid : id = (s.heap b).wireId
    · subst hid
      rcases hl.window with ⟨hwindow, hlt, -⟩ | ⟨hwindow, -, -⟩
      · rw [hwindow] at hlookup
        obtain rfl := some.inj hlookup
        exact ⟨hlt, Or.inl ⟨b, hkeep b hb⟩⟩
      · rw [hwindow] at hlookup
        cases hlookup
    · rw [hl.elsewhere id hid] at hlookup
      rw [hl.mailbox.2]
      obtain ⟨hlt, ⟨c, hc, rfl⟩ | hmem⟩ := h.window id n hlookup
      · exact ⟨hlt, Or.inl ⟨c, hkeep c hc⟩⟩
      · exact ⟨hlt, Or.inr hmem⟩
  · rw [hl.pending, hpending] at hp
    cases hp

lemma Bounded.finish (h : s.Bounded) (handoff : Handoff) : (s.finish handoff).Bounded := by
  unfold SessionReader.finish
  cases hp : s.pending with
  | none => exact h
  | some p =>
    have hdone : Bounded { s with pending := none } := h.setPending fun q hq => by cases hq
    dsimp only
    unfold SessionReader.deliver
    cases hv : p.verdict with
    | none => exact hdone
    | some v =>
      dsimp only
      split
      · split
        · exact hdone
        · exact hdone.congr_of_live (fun _ hb => ⟨hb, rfl⟩) rfl rfl rfl hdone.mailbox
      rename_i hexact
      split
      · have hlive := h.sending p hp v hv (Bool.eq_false_iff.mpr hexact)
        exact hdone.learned hlive rfl (learned_learn _ _ _)
      · exact hdone

lemma Bounded.next (hs : s.Held) (h : s.Bounded) (ev : SessionEvent) (hev : s.Settled ev) :
    (s.next ev).Bounded := by
  cases ev with
  | openFlow wireId target resolved => exact h.openFlow hs wireId target resolved
  | closeFlow wireId => exact h.closeFlow hev
  | removeFlow wireId => exact h.removeFlow hev
  | needContext wireId => exact h.noteNeedContext wireId
  | allocElsewhere => exact h.congr_of_live (fun _ hb => ⟨hb, rfl⟩) rfl rfl rfl h.mailbox
  | reply grant src =>
    change (s.takeReply grant src).Bounded
    unfold takeReply
    split
    · exact h
    · exact h.classify hs grant src
  | sent handoff => exact h.finish handoff

/-- The windows are among the ids of the listed flows and those of the last repairs. -/
lemma Bounded.size_le (hs : s.Held) (h : s.Bounded) :
    s.ctxSent.size ≤ maxFlowsPerSession + ctxNeedCap := by
  have hsub : s.ctxSent.keys ⊆ (s.refs.map fun b => (s.heap b).wireId) ++ s.repaired := by
    intro id hid
    obtain ⟨n, hn⟩ := isSome_iff_exists.mp (AList.lookup_isSome.mpr (AList.mem_keys.mpr hid))
    obtain ⟨-, ⟨b, hb, rfl⟩ | hmem⟩ := h.window id n hn
    · exact mem_append_left _ (mem_map_of_mem hb.1)
    · exact mem_append_right _ hmem
  have hrefs : s.refs.length ≤ maxFlowsPerSession := by
    rw [← hs.length]
    exact length_filterMap_le _ _
  have hrepairs := h.repairs
  rw [Map.size_eq_length_keys]
  calc s.ctxSent.keys.length
      ≤ ((s.refs.map fun b => (s.heap b).wireId) ++ s.repaired).length :=
        (subperm_of_subset s.ctxSent.keys_nodup hsub).length_le
    _ = s.refs.length + s.repaired.length := by rw [length_append, length_map]
    _ ≤ maxFlowsPerSession + ctxNeedCap := Nat.add_le_add hrefs hrepairs

/-- While no flow closes inside its window, the windows are those of live flows and of the last
repairs, and so are bounded. -/
theorem windows_bounded (sess : UInt32) (es : List SessionEvent)
    (h : Along next Settled (new sess) es) :
    let s := after next (new sess) es
    (∀ id n, s.ctxSent.lookup id = some n →
      (∃ b ∈ s.refs, (s.heap b).wireId = id ∧ (s.heap b).state ≠ .closed ∧ n < r3ContextK) ∨
        id ∈ s.repaired) ∧
    s.ctxSent.size ≤ maxFlowsPerSession + ctxNeedCap := by
  intro s
  have hstep : ∀ (s : SessionReader) ev, s.Held ∧ s.Bounded → s.Settled ev →
      (s.next ev).Held ∧ (s.next ev).Bounded :=
    fun s ev hs hev => ⟨hs.1.next ev, hs.2.next hs.1 ev hev⟩
  have hinv : s.Held ∧ s.Bounded := after_of_invariant hstep ⟨new_held sess, new_bounded sess⟩ h
  refine ⟨fun id n hl => ?_, hinv.2.size_le hinv.1⟩
  obtain ⟨hlt, ⟨b, hb, hid⟩ | hmem⟩ := hinv.2.window id n hl
  · exact Or.inl ⟨b, hb.1, hid, hb.2, hlt⟩
  · exact Or.inr hmem

/-- A flow learns a source and closes once it was told twice. -/
theorem windows_bounded_told_twice :
    let host := fun port => SocketAddr.v4 (.new 10 0 0 1) port
    let es : List SessionEvent :=
      [.openFlow 2 (.ip (host 53)) [], .reply false (host 7000), .sent .taken,
        .reply false (host 7000), .sent .taken, .closeFlow 2, .removeFlow 2,
        .reply true (host 7000), .sent .taken]
    Along next Settled (new 1) es ∧ (after next (new 1) es).ctxSent.size ≤ 64 + 64 :=
  ⟨by decide +kernel, (windows_bounded 1 _ (by decide +kernel)).2⟩

/-- The window of a flow that was told once stays when the flow closes, and one more with each such
flow. -/
theorem windows_outlive_flows :
    let told := fun id : UInt32 =>
      [SessionEvent.openFlow id (.ip (.v4 (.new 10 0 0 1) 53)) [],
        .reply false (.v4 (.new 10 0 0 1) 7000), .sent .taken, .closeFlow id, .removeFlow id]
    let s := after next (new 1) (told 2 ++ told 4 ++ told 6)
    s.refs = [] ∧ s.repaired = [] ∧ s.ctxSent.keys = [6, 4, 2] := by
  decide +kernel

end SessionReader

end MyQuic2
