import MyQuic2.Udp.StageQueue

/-!
# Claimed batches

The frames of a batch tile its items: each one starts where the one before it ends.
Claiming moves heads of the queues into new frames at the end, encoding takes whole
frames out, and sending walks over them, so that the items of the frames not yet
handed over are at all times a suffix of the batch.
-/

namespace MyQuic2

open List R2StageItem R2Stager

/-- The frames cover the items from one index to another, in order and without a gap. -/
def Tiles : Nat → List PackedFrame → Nat → Prop
  | off, [], stop => off = stop
  | off, f :: frames, stop => f.itemOff = off ∧ Tiles (off + f.itemLen) frames stop

variable {frames : List PackedFrame} {stop : Nat}

lemma tiles_append {off : Nat} {frames' : List PackedFrame} :
    Tiles off (frames ++ frames') stop ↔ ∃ mid, Tiles off frames mid ∧ Tiles mid frames' stop := by
  induction frames generalizing off with
  | nil =>
    constructor
    · exact fun h => ⟨off, rfl, h⟩
    · rintro ⟨mid, rfl, h⟩
      exact h
  | cons f frames ih =>
    simp only [cons_append, Tiles, ih]
    constructor
    · rintro ⟨hoff, mid, h, h'⟩
      exact ⟨mid, ⟨hoff, h⟩, h'⟩
    · rintro ⟨mid, ⟨hoff, h⟩, h'⟩
      exact ⟨hoff, mid, h, h'⟩

lemma Tiles.le {off : Nat} (h : Tiles off frames stop) : off ≤ stop := by
  induction frames generalizing off with
  | nil => exact Nat.le_of_eq h
  | cons f frames ih => exact (Nat.le_add_right _ _).trans (ih h.2)

/-- Frames behind a gap close it when they move up. -/
lemma Tiles.moveUp {off len : Nat} (h : Tiles (off + len) frames stop) :
    Tiles off (frames.map fun g => { g with itemOff := g.itemOff - len }) (stop - len) := by
  induction frames generalizing off with
  | nil =>
    have hstop : off + len = stop := h
    rw [← hstop]
    exact (Nat.add_sub_cancel ..).symm
  | cons f frames ih =>
    obtain ⟨hoff, hrest⟩ := h
    refine ⟨?_, ?_⟩
    · show f.itemOff - len = off
      rw [hoff, Nat.add_sub_cancel]
    · rw [Nat.add_right_comm] at hrest
      exact ih hrest

namespace PackedFrames

def Packed (q : PackedFrames) : Prop := Tiles 0 q.frames q.items.length

variable {q : PackedFrames}

lemma empty_packed (wire : Wire) : (empty wire).Packed := rfl

lemma addFrame_packed (h : q.Packed) (shape : FrameShape) (run : List R2StageItem) :
    (q.addFrame shape run).Packed := by
  refine tiles_append.mpr ⟨q.items.length, h, rfl, ?_⟩
  exact length_append.symm

variable {f : PackedFrame} {k : Nat}

/-- Around a frame, the frames before it and behind it tile the other items. -/
lemma Packed.around (h : q.Packed) (hf : q.frames[k]? = some f) :
    Tiles 0 (q.frames.take k) f.itemOff ∧
      Tiles (f.itemOff + f.itemLen) (q.frames.drop (k + 1)) q.items.length := by
  obtain ⟨hk, hget⟩ := List.getElem?_eq_some_iff.mp hf
  have hsplit : q.frames = q.frames.take k ++ f :: q.frames.drop (k + 1) := by
    rw [← hget, ← List.drop_eq_getElem_cons hk, List.take_append_drop]
  unfold Packed at h
  rw [hsplit] at h
  obtain ⟨mid, hbefore, hoff, hbehind⟩ := tiles_append.mp h
  subst hoff
  exact ⟨hbefore, hbehind⟩

lemma unsent_of_getElem?_eq_none (hk : q.frames[k]? = none) : q.unsent k = [] := by
  rw [unsent, hk]

lemma unsent_of_getElem?_eq_some (hf : q.frames[k]? = some f) :
    q.unsent k = q.items.drop f.itemOff := by
  rw [unsent, hf]

/-- A batch of which nothing was handed over is unsent as a whole. -/
lemma Packed.unsent_zero (h : q.Packed) : q.unsent 0 = q.items := by
  unfold Packed at h
  generalize hframes : q.frames = frames' at h ⊢
  cases frames' with
  | nil =>
    rw [unsent_of_getElem?_eq_none (by rw [hframes]; rfl)]
    exact (length_eq_zero_iff.mp h.symm).symm
  | cons f frames =>
    rw [unsent_of_getElem?_eq_some (by rw [hframes]; rfl), h.1, drop_zero]

lemma Packed.unsent_eq (h : q.Packed) (hf : q.frames[k]? = some f) :
    q.unsent k = q.run f ++ q.unsent (k + 1) := by
  obtain ⟨-, hbehind⟩ := h.around hf
  have hnext : q.unsent (k + 1) = q.items.drop (f.itemOff + f.itemLen) := by
    cases hg : q.frames[k + 1]? with
    | none =>
      rw [drop_eq_nil_of_le (getElem?_eq_none_iff.mp hg)] at hbehind
      rw [unsent_of_getElem?_eq_none hg]
      exact (drop_eq_nil_of_le (Nat.le_of_eq (Eq.symm hbehind))).symm
    | some g =>
      obtain ⟨hk, hget⟩ := List.getElem?_eq_some_iff.mp hg
      rw [List.drop_eq_getElem_cons hk, hget] at hbehind
      rw [unsent_of_getElem?_eq_some hg, hbehind.1]
  rw [unsent_of_getElem?_eq_some hf, hnext, run, ← drop_drop, take_append_drop]

lemma setBody_packed (h : q.Packed) {i : Nat} (hf : q.frames[i]? = some f) (body : Bytes) :
    Packed { q with frames := q.frames.set i { f with body := some body } } := by
  obtain ⟨hbefore, hbehind⟩ := h.around hf
  obtain ⟨hi, -⟩ := List.getElem?_eq_some_iff.mp hf
  unfold Packed
  rw [List.set_eq_take_append_cons_drop, if_pos hi]
  exact tiles_append.mpr ⟨f.itemOff, hbefore, rfl, hbehind⟩

lemma removeFrame_packed (h : q.Packed) {i : Nat} (hf : q.frames[i]? = some f) :
    (q.removeFrame i f).Packed := by
  obtain ⟨hbefore, hbehind⟩ := h.around hf
  have hle := hbehind.le
  have hlen : (q.removeFrame i f).items.length = q.items.length - f.itemLen := by
    simp only [removeFrame, length_append, length_take, length_drop]
    omega
  unfold Packed
  rw [hlen]
  exact tiles_append.mpr ⟨f.itemOff, hbefore, hbehind.moveUp⟩

lemma removeFrame_items (q : PackedFrames) (i : Nat) (f : PackedFrame) :
    q.items.Perm ((q.removeFrame i f).items ++ q.run f) ∧
      (q.removeFrame i f).items.Sublist q.items := by
  have hsplit : q.items = q.items.take f.itemOff ++
      (q.run f ++ q.items.drop (f.itemOff + f.itemLen)) := by
    rw [run, ← drop_drop, take_append_drop, take_append_drop]
  constructor
  · conv_lhs => rw [hsplit]
    rw [removeFrame, append_assoc]
    exact perm_append_comm.append_left _
  · conv_rhs => rw [hsplit]
    exact (sublist_append_right _ _).append_left _

lemma encodeFrom_spec (limit rounds i : Nat) (q : PackedFrames)
    (booked : List R2StageItem) (h : q.Packed) :
    (encodeFrom limit rounds i (q, booked)).1.Packed ∧
      (encodeFrom limit rounds i (q, booked)).1.items.Sublist q.items ∧
      (q.items ++ booked).Perm ((encodeFrom limit rounds i (q, booked)).1.items ++
        (encodeFrom limit rounds i (q, booked)).2) := by
  induction rounds generalizing i q booked with
  | zero => exact ⟨h, List.Sublist.refl _, .refl _⟩
  | succ rounds ih =>
    unfold encodeFrom
    split
    · exact ⟨h, List.Sublist.refl _, .refl _⟩
    rename_i f hf
    split
    · next body _ => exact ih (i + 1) _ booked (setBody_packed h hf body)
    obtain ⟨hperm, hsub⟩ := removeFrame_items q i f
    obtain ⟨hp, hs, hall⟩ := ih i (q.removeFrame i f) (booked ++ q.run f) (removeFrame_packed h hf)
    refine ⟨hp, hs.trans hsub, List.Perm.trans ?_ hall⟩
    refine (hperm.append_right booked).trans ?_
    rw [append_assoc]
    exact perm_append_comm.append_left _

/-- Encoding keeps the tiling, and gives up exactly the items it takes out. -/
lemma encodeClaimed_spec (h : q.Packed) (limit : Nat) :
    (q.encodeClaimed limit).1.Packed ∧ (q.encodeClaimed limit).1.items.Sublist q.items ∧
      q.items.Perm ((q.encodeClaimed limit).1.items ++ (q.encodeClaimed limit).2) := by
  have hspec := encodeFrom_spec limit q.frames.length 0 q [] h
  rwa [append_nil] at hspec

end PackedFrames

namespace R2Stager

variable {st st' : R2Stager}

section

variable {s : UInt32} {limit : Nat} {run run' : List R2StageItem} {unique unique' : List UInt32}
  (h : st.takeSteadyHead s limit run unique = some (st', run', unique'))
include h

/-- The steady head that a train takes, and the stager without it. -/
lemma takeSteadyHead_cases :
    ∃ item wireId mid, st.popOne s = some (item, mid) ∧ item.kind = .steady wireId ∧
      st.joinsRun limit run unique item wireId = true ∧ st' = mid.rotateSteadyPast s ∧
        run' = run ++ [item] ∧
          unique' = if unique.contains wireId then unique else unique ++ [wireId] := by
  unfold takeSteadyHead at h
  obtain ⟨front, hfront, h⟩ := Option.bind_eq_some_iff.mp h
  split at h
  · rename_i wireId hkind
    obtain ⟨⟨⟩, hjoins, h⟩ := Option.bind_eq_some_iff.mp h
    obtain ⟨⟨item, mid⟩, hpop, h⟩ := Option.bind_eq_some_iff.mp h
    obtain ⟨rfl, rfl, rfl⟩ : mid.rotateSteadyPast s = st' ∧ run ++ [item] = run' ∧ _ := by
      simpa only [Option.some.injEq, Prod.mk.injEq] using h
    obtain rfl : front = item := Option.some.inj (hfront.symm.trans (popOne_head? hpop))
    have hjoins : st.joinsRun limit run unique front wireId = true := by
      unfold guard at hjoins
      split at hjoins
      · assumption
      · cases hjoins
    exact ⟨front, wireId, mid, hpop, hkind, hjoins, rfl, rfl, rfl⟩
  · cases h

lemma takeSteadyHead_pulls (hk : st.sessions.Keyed session) :
    ∃ item, run' = run ++ [item] ∧ Pulls st st' [item] := by
  obtain ⟨item, _, mid, hpop, -, -, rfl, hrun, -⟩ := takeSteadyHead_cases h
  exact ⟨item, hrun, (popOne_pulls hk hpop).trans_same (rotateSteadyPast_same mid s)⟩

end

/-- What serving a session makes of a stager, step by step: the steady cursor walks on, a head is
popped, and the cursor turns past a session. -/
inductive Serves (st : R2Stager) : R2Stager → Prop
  | refl : Serves st st
  | walk {st' : R2Stager} (h : Serves st st') : Serves st st'.nextSteadySession.2
  | pop {st' st'' : R2Stager} {s : UInt32} {item : R2StageItem} (h : Serves st st')
    (hpop : st'.popOne s = some (item, st'')) : Serves st st''
  | turn {st' : R2Stager} (h : Serves st st') (s : UInt32) : Serves st (st'.rotateSteadyPast s)

lemma Serves.take {base : R2Stager} {s : UInt32} {limit : Nat} {run run' : List R2StageItem}
    {unique unique' : List UInt32} (h : Serves base st)
    (htake : st.takeSteadyHead s limit run unique = some (st', run', unique')) :
    Serves base st' := by
  obtain ⟨_, _, mid, hpop, -, -, rfl, -, -⟩ := takeSteadyHead_cases htake
  exact (h.pop hpop).turn s

lemma Serves.steadyRun {base : R2Stager} (h : Serves base st) (limit rounds : Nat)
    (run : List R2StageItem) (unique : List UInt32) :
    Serves base (steadyRun limit rounds st run unique).1 := by
  induction rounds generalizing st run unique with
  | zero => exact h
  | succ rounds ih =>
    have hwalk := h.walk
    unfold R2Stager.steadyRun
    split
    · rename_i hnone
      rw [hnone] at hwalk
      exact hwalk
    rename_i hsome
    rw [hsome] at hwalk
    split
    · exact hwalk
    · next htake => exact ih (hwalk.take htake) _ _

lemma steadyRun_pulls (limit rounds : Nat) (st : R2Stager)
    (hk : st.sessions.Keyed session) (run : List R2StageItem) (unique : List UInt32) :
    ∃ out, (steadyRun limit rounds st run unique).2 = run ++ out ∧
      Pulls st (steadyRun limit rounds st run unique).1 out := by
  induction rounds generalizing st run unique with
  | zero => exact ⟨[], (append_nil _).symm, (SameQueues.refl st).pulls⟩
  | succ rounds ih =>
    have hsame := skipUnsteady_same st st.steadyOrder
    unfold steadyRun nextSteadySession
    split
    · rename_i st' hnext
      rw [hnext] at hsame
      exact ⟨[], (append_nil _).symm, hsame.pulls⟩
    rename_i s st' hnext
    rw [hnext] at hsame
    split
    · exact ⟨[], (append_nil _).symm, hsame.pulls⟩
    rename_i st'' run' unique' htake
    obtain ⟨item, hrun, hpull⟩ := takeSteadyHead_pulls htake (hsame.pulls.keyed hk)
    have hfirst := hsame.pulls.trans hpull
    obtain ⟨out, hout, hpulls⟩ := ih st'' (hfirst.keyed hk) run' unique'
    refine ⟨[item] ++ out, ?_, hfirst.trans hpulls⟩
    rw [hout, hrun, append_assoc]

end R2Stager

namespace Claim

/-- One claim goes on where another one stood: items were pulled, and each went into a new frame
or was given up. -/
structure Claims (c c' : Claim) (out : List R2StageItem) : Prop where
  pulls : c.stager.Pulls c'.stager out
  packed : c.q.Packed → c'.q.Packed
  moved : ∃ new lost, c'.q.items = c.q.items ++ new ∧ c'.booked = c.booked ++ lost ∧
    out.Perm (new ++ lost) ∧ new.Sublist out

variable {c c' c'' : Claim} {out out' : List R2StageItem}

lemma Claims.trans (h : Claims c c' out) (h' : Claims c' c'' out') :
    Claims c c'' (out ++ out') where
  pulls := h.pulls.trans h'.pulls
  packed hp := h'.packed (h.packed hp)
  moved := by
    obtain ⟨new, lost, hitems, hbooked, hperm, hsub⟩ := h.moved
    obtain ⟨new', lost', hitems', hbooked', hperm', hsub'⟩ := h'.moved
    refine ⟨new ++ new', lost ++ lost', ?_, ?_, ?_, hsub.append hsub'⟩
    · rw [hitems', hitems, append_assoc]
    · rw [hbooked', hbooked, append_assoc]
    · refine (hperm.append hperm').trans ?_
      rw [append_assoc, append_assoc]
      refine Perm.append_left new ?_
      rw [← append_assoc, ← append_assoc]
      exact perm_append_comm.append_right lost'

variable {st : R2Stager}

/-- Claim that only walks the cursors. -/
lemma Claims.of_same (h : c.stager.SameQueues st) (wire : Wire) :
    Claims c { c with stager := st, q := { c.q with wire := wire } } [] where
  pulls := h.pulls
  packed hp := hp
  moved := ⟨[], [], (append_nil _).symm, (append_nil _).symm, .refl _, .refl _⟩

lemma Claims.of_frame (h : c.stager.Pulls st out) (shape : FrameShape) :
    Claims c { c with stager := st, q := c.q.addFrame shape out } out where
  pulls := h
  packed hp := PackedFrames.addFrame_packed hp shape out
  moved := by
    refine ⟨out, [], rfl, (append_nil _).symm, ?_, .refl _⟩
    rw [append_nil]

/-- Claim that gives items up. -/
lemma Claims.of_lost (h : c.stager.Pulls st out) :
    Claims c { c with stager := st, booked := c.booked ++ out } out where
  pulls := h
  packed hp := hp
  moved := ⟨[], out, (append_nil _).symm, rfl, .refl _, nil_sublist _⟩

section

variable (limit : Nat) (hk : c.stager.sessions.Keyed session)
include hk

lemma standalone_claims {s : UInt32} (hs : c.stager.sessions.queue s ≠ []) :
    ∃ out, Claims c (c.standalone s) out ∧ out ≠ [] := by
  unfold standalone
  split
  · next hpop => exact absurd (popOne_eq_none hpop) hs
  · rename_i item st hpop
    exact ⟨[item], Claims.of_frame (popOne_pulls hk hpop) _, cons_ne_nil _ _⟩

lemma dropHead_claims {s : UInt32} (hs : c.stager.steadyHead s = true) :
    ∃ out, Claims c (c.dropHead s) out ∧ out ≠ [] := by
  unfold dropHead
  rw [if_pos hs]
  split
  · rename_i hpop
    rw [steadyHead, popOne_eq_none hpop] at hs
    cases hs
  · rename_i item st hpop
    exact ⟨[item], Claims.of_lost (popOne_pulls hk hpop), cons_ne_nil _ _⟩

lemma steadyFrame_claims {s : UInt32} (hs : c.stager.steadyHead s = true) :
    ∃ out, Claims c (c.steadyFrame limit s) out ∧ out ≠ [] := by
  unfold steadyFrame
  split
  · exact dropHead_claims hk hs
  rename_i st run unique htake
  obtain ⟨item, rfl, hpull⟩ := takeSteadyHead_pulls htake hk
  obtain ⟨out, hout, hpulls⟩ := steadyRun_pulls limit st.maxTrainItems st
    (hpull.keyed hk) ([] ++ [item]) unique
  refine ⟨_, Claims.of_frame ?_ _, ?_⟩
  · rw [hout]
    exact hpull.trans hpulls
  · rw [hout]
    exact cons_ne_nil _ _

/-- A round finds the queue empty or takes an item out of it. -/
lemma claimOneFrame_claims :
    ∃ out, Claims c (c.claimOneFrame limit).2 out ∧
      ((c.claimOneFrame limit).1 = true → out ≠ []) := by
  have hsame := skipEmpty_same c.stager c.stager.order
  have hsession : ∀ s, (c.stager.skipEmpty c.stager.order).1 = some s →
      c.stager.sessions.queue s ≠ [] := fun s => skipEmpty_hasSession c.stager
  unfold claimOneFrame nextSession
  split
  · rename_i st hnext
    rw [hnext] at hsame
    exact ⟨[], Claims.of_same hsame _, nofun⟩
  rename_i s st hnext
  rw [hnext] at hsame
  have hwalk := Claims.of_same hsame st.wire
  have hk' := hwalk.pulls.keyed hk
  split
  · rename_i hs
    obtain ⟨out, hout, hne⟩ := steadyFrame_claims limit hk' hs
    exact ⟨[] ++ out, hwalk.trans hout, fun _ => hne⟩
  have hqueue : st.sessions.queue s ≠ [] := by
    rw [hsame.sessions]
    exact hsession s (by rw [hnext])
  obtain ⟨out, hout, hne⟩ := standalone_claims hk' hqueue
  exact ⟨[] ++ out, hwalk.trans hout, fun _ => hne⟩

end

variable (limit maxFrames maxItems rounds : Nat) (c : Claim)

lemma claimLoop_claims (hk : c.stager.sessions.Keyed session) :
    ∃ out, Claims c (claimLoop limit maxFrames maxItems rounds c) out := by
  induction rounds generalizing c with
  | zero => exact ⟨[], Claims.of_same (R2Stager.SameQueues.refl _) c.q.wire⟩
  | succ rounds ih =>
    obtain ⟨out, hout, -⟩ := claimOneFrame_claims (c := c) limit hk
    unfold claimLoop
    split
    · split
      · rename_i c' hone
        rw [hone] at hout
        exact ⟨out, hout⟩
      rename_i c' hone
      rw [hone] at hout
      obtain ⟨out', hout'⟩ := ih c' (hout.pulls.keyed hk)
      exact ⟨out ++ out', hout.trans hout'⟩
    · exact ⟨[], Claims.of_same (R2Stager.SameQueues.refl _) c.q.wire⟩

section

variable {c} (s : UInt32)

lemma serves_standalone : c.stager.Serves (c.standalone s).stager := by
  unfold standalone
  split
  · exact .refl
  · next hpop => exact .pop .refl hpop

lemma serves_dropHead : c.stager.Serves (c.dropHead s).stager := by
  unfold dropHead
  split
  · split
    · exact .refl
    · next hpop => exact .pop .refl hpop
  · exact .refl

lemma serves_steadyFrame : c.stager.Serves (c.steadyFrame limit s).stager := by
  unfold steadyFrame
  split
  · exact serves_dropHead s
  · next htake => exact (R2Stager.Serves.refl.take htake).steadyRun ..

/-- A round serves the session whose turn it is. -/
lemma serves_claimOneFrame :
    c.stager.nextSession.2.Serves (c.claimOneFrame limit).2.stager := by
  unfold claimOneFrame
  split
  · rename_i hnone
    rw [hnone]
    exact .refl
  rename_i s st hsome
  rw [hsome]
  let walked : Claim := { c with stager := st, q := { c.q with wire := st.wire } }
  split
  · exact serves_steadyFrame (c := walked) limit s
  · exact serves_standalone (c := walked) s

end

/-- What each round keeps, a claim keeps. -/
lemma claimLoop_kept {P : R2Stager → Prop}
    (hone : ∀ c : Claim, P c.stager → P (c.claimOneFrame limit).2.stager) (h : P c.stager) :
    P (claimLoop limit maxFrames maxItems rounds c).stager := by
  induction rounds generalizing c with
  | zero => exact h
  | succ rounds ih =>
    have hnext := hone c h
    unfold claimLoop
    split
    · split
      · rename_i hlast
        rw [hlast] at hnext
        exact hnext
      rename_i hmore
      rw [hmore] at hnext
      exact ih _ hnext
    · exact h

end Claim

lemma R2Stager.claimBatch_claims (st : R2Stager) (hk : st.sessions.Keyed session)
    (limit maxFrames maxItems : Nat) (q : PackedFrames) :
    ∃ out, Claim.Claims ⟨st, { q with wire := st.wire }, []⟩
      (st.claimBatch limit maxFrames maxItems q) out :=
  Claim.claimLoop_claims _ _ _ _ _ hk

lemma R2Stager.mem_queued_of_claimed {st : R2Stager} {w : Wire}
    (hk : st.sessions.Keyed session) {limit maxFrames maxItems : Nat} {x : R2StageItem}
    (hx : x ∈ (st.claimBatch limit maxFrames maxItems (.empty w)).q.items) : x ∈ st.queued := by
  obtain ⟨out, hclaims⟩ := claimBatch_claims st hk limit maxFrames maxItems (.empty w)
  obtain ⟨new, lost, hitems, -, -, hsub⟩ := hclaims.moved
  rw [hitems] at hx
  exact (hclaims.pulls.removes.perm hk).mem_iff.mpr (mem_append_left _ (hsub.subset hx))

end MyQuic2
