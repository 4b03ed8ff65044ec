import MyQuic2.Core.Run

/-!
# The 0-RTT phase of a slot

All dials of a slot share one phase. A dial resets it, a resumed one marks it pending, and
the monitor of that dial stores the verdict on its early data when it is there, whichever
dial the slot is at by then.
-/

namespace MyQuic2

open Function

inductive ZeroRttPhase where
  | none
  | pending
  | accepted
  | rejected
  deriving DecidableEq

/-- The phase of a slot, its last dial with what it has become, and of every dial the verdict on
its early data and whether a monitor has still to store it. -/
structure ZeroRttSlot where
  phase : ZeroRttPhase
  dial : Nat
  resumed : Option Bool
  verdict : Nat → Option Bool
  monitor : Nat → Bool

inductive ZeroRttEvent where
  /-- `dial_once` begins, with the dial before it failed, or published and dead. -/
  | dialOnce
  /-- There are no early keys: a full handshake. -/
  | full
  /-- The connection is there before its handshake is complete. -/
  | resume
  /-- The early data of a dial is kept, or rejected or lost with the connection. -/
  | settle (n : Nat) (accepted : Bool)
  /-- The monitor of a dial stores its verdict. -/
  | store (n : Nat)

namespace ZeroRttSlot

def new : ZeroRttSlot := ⟨.none, 0, none, fun _ => none, fun _ => false⟩

section

variable (s : ZeroRttSlot) (deadlinePassed : Bool)

def markSettled (accepted : Bool) : ZeroRttSlot :=
  { s with phase := if accepted then .accepted else .rejected }

def next : ZeroRttEvent → ZeroRttSlot
  | .dialOnce => { s with phase := .none, dial := s.dial + 1, resumed := none }
  | .full => if s.resumed = none then { s with resumed := some false } else s
  | .resume =>
    if s.resumed = none then
      { s with
        phase := .pending
        resumed := some true
        monitor := Function.update s.monitor s.dial true }
    else s
  | .settle n accepted =>
    if s.monitor n = true ∧ s.verdict n = none then
      { s with verdict := Function.update s.verdict n (some accepted) }
    else s
  | .store n =>
    match s.monitor n, s.verdict n with
    | true, some accepted =>
      { s.markSettled accepted with monitor := Function.update s.monitor n false }
    | _, _ => s

/-- `wait_settled` lets the control stream open. -/
def settled : Bool :=
  s.phase ≠ .pending || deadlinePassed

/-- `open_bi_and_write_header` discards a stream after its header was written. -/
def discards (early : Bool) : Bool := early && s.phase = .rejected

end

/-- The phase is that of the last dial, and only a resumed dial has a verdict and a monitor. -/
structure Belongs (s : ZeroRttSlot) : Prop where
  full : s.resumed ≠ some true → s.phase = .none
  pending : s.resumed = some true → s.verdict s.dial = none → s.phase = .pending
  accepted : s.phase = .accepted → s.verdict s.dial = some true
  rejected : s.phase = .rejected → s.verdict s.dial = some false
  fresh : ∀ n, s.dial < n ∨ n = s.dial ∧ s.resumed ≠ some true →
    s.monitor n = false ∧ s.verdict n = none

/-- A monitor stores its verdict when its own dial is the last one. -/
def OwnStore (s : ZeroRttSlot) : ZeroRttEvent → Prop
  | .store n => n = s.dial
  | _ => True

instance (s : ZeroRttSlot) : (ev : ZeroRttEvent) → Decidable (s.OwnStore ev)
  | .store n => inferInstanceAs (Decidable (n = s.dial))
  | .dialOnce | .full | .resume | .settle _ _ => inferInstanceAs (Decidable True)

variable {s : ZeroRttSlot}

lemma Belongs.next (h : s.Belongs) (ev : ZeroRttEvent) (hown : s.OwnStore ev) :
    (s.next ev).Belongs := by
  cases ev with
  | dialOnce =>
    refine ⟨fun _ => rfl, nofun, nofun, nofun, fun n hn => h.fresh n (.inl ?_)⟩
    rcases hn with hn | ⟨rfl, -⟩
    · exact Nat.lt_of_succ_lt hn
    · exact Nat.lt_succ_self _
  | full =>
    rw [ZeroRttSlot.next]
    split
    · rename_i hnone
      have hphase := h.full (by simp [hnone])
      refine ⟨fun _ => hphase, nofun, h.accepted, h.rejected, fun n hn => h.fresh n ?_⟩
      exact hn.imp_right fun hn => ⟨hn.1, by simp [hnone]⟩
    · exact h
  | resume =>
    rw [ZeroRttSlot.next]
    split
    · refine ⟨fun hn => absurd rfl hn, fun _ _ => rfl, nofun, nofun, fun n hn => ?_⟩
      dsimp only at hn ⊢
      rcases hn with hn | hn
      · rw [update_of_ne (Nat.ne_of_gt hn)]
        exact h.fresh n (.inl hn)
      · exact absurd rfl hn.2
    · exact h
  | settle n accepted =>
    rw [ZeroRttSlot.next]
    split
    · rename_i hwait
      have hother (m : Nat) (v : Bool) (hm : s.verdict m = some v) :
          Function.update s.verdict n (some accepted) m = some v := by
        rw [update_of_ne (by rintro rfl; simp_all), hm]
      refine ⟨h.full, fun hr hv => h.pending hr ?_,
        fun hp => hother _ _ (h.accepted hp), fun hp => hother _ _ (h.rejected hp), fun m hm => ?_⟩
      · by_contra hsome
        obtain ⟨v, hsome⟩ := Option.ne_none_iff_exists'.mp hsome
        cases hv.symm.trans (hother _ v hsome)
      · have hmn : m ≠ n := by
          rintro rfl
          exact Bool.false_ne_true ((h.fresh m hm).1.symm.trans hwait.1)
        exact ⟨(h.fresh m hm).1, (update_of_ne hmn ..).trans (h.fresh m hm).2⟩
    · exact h
  | store n =>
    obtain rfl : n = s.dial := hown
    rw [ZeroRttSlot.next]
    split
    · rename_i accepted hmonitor hverdict
      have hresumed : s.resumed = some true := by
        by_contra hne
        exact Bool.false_ne_true ((h.fresh _ (.inr ⟨rfl, hne⟩)).1.symm.trans hmonitor)
      refine ⟨fun hne => absurd hresumed hne, ?_, ?_, ?_, fun m hm => ?_⟩
      · simp [markSettled, hverdict]
      · cases accepted <;> simp [markSettled, hverdict]
      · cases accepted <;> simp [markSettled, hverdict]
      · rcases hm with hm | hm
        · exact ⟨(update_of_ne (Nat.ne_of_gt hm) ..).trans (h.fresh m (.inl hm)).1,
            (h.fresh m (.inl hm)).2⟩
        · exact absurd hresumed hm.2
    · exact h

/-- If every monitor stores while its dial is the last one, the phase is that of the last dial: the
control stream waits for its verdict, and a stream is discarded for its rejection only. -/
theorem phase_belongs (es : List ZeroRttEvent) (hown : Along next OwnStore new es) :
    let s := after next new es
    (s.resumed = some false → s.phase = .none) ∧
    (s.resumed = some true → s.verdict s.dial = none → s.phase = .pending) ∧
    (s.phase = .accepted → s.verdict s.dial = some true) ∧
    (s.phase = .rejected → s.verdict s.dial = some false) ∧
    (s.resumed = some true → s.settled false = true → s.verdict s.dial ≠ none) ∧
    ∀ early, s.discards early = true → s.verdict s.dial = some false := by
  intro s
  have hnew : new.Belongs := ⟨fun _ => rfl, nofun, nofun, nofun, fun _ _ => ⟨rfl, rfl⟩⟩
  have h : s.Belongs := after_of_invariant (fun s ev (h : s.Belongs) hev => h.next ev hev) hnew hown
  refine ⟨fun hr => h.full (by simp [hr]), h.pending, h.accepted, h.rejected, fun hr hs hv => ?_,
    fun early hd => ?_⟩
  · simp [settled, h.pending hr hv] at hs
  · simp only [discards, Bool.and_eq_true, decide_eq_true_eq] at hd
    exact h.rejected hd.2

theorem phase_belongs_redial :
    let s := after next new [.dialOnce, .resume, .settle 1 false, .store 1, .dialOnce, .resume]
    s.phase = .pending ∧ s.verdict s.dial = none :=
  ⟨(phase_belongs _ (by decide)).2.1 rfl rfl, rfl⟩

/-- The connection of a resumed dial is lost and the slot dials again; then the first monitor stores
its verdict, and the streams of the second connection are taken for rejected. -/
theorem late_monitor_rejects :
    let s := after next new [.dialOnce, .resume, .dialOnce, .resume, .settle 1 false, .store 1]
    s.dial = 2 ∧ s.resumed = some true ∧ s.verdict 2 = none ∧ s.phase = .rejected ∧
    s.settled false = true ∧ s.discards true = true := by
  decide

end ZeroRttSlot

end MyQuic2
