import MyQuic2.Core.Run
import MyQuic2.Mqp.Addr

/-!
# Closes that reach an association

The dispatchers of all generations tell an association of a close through one bit, which the next
sync of its uplink takes. The bit does not say on which generation the close came in.
-/

namespace MyQuic2

open List

/-- A binding, numbered in the order they are made. -/
structure UplinkBinding where
  target : TargetAddr
  generation : Nat
  number : Nat
  closed : Bool

structure CloseRun where
  epoch : Nat
  flows : List UplinkBinding
  stageBatch : List Bytes
  closed : Bool
  /-- Bindings made so far. -/
  made : Nat
  /-- The generations whose closes raised the signal since it was taken. -/
  raisedBy : List Nat
  /-- The bindings below were made before a close on the generation in use. -/
  barrier : Nat

inductive CloseEvent where
  /-- The dispatcher of a generation removes the session from its registry. -/
  | removeSession (generation : Nat)
  /-- It raises the signal. -/
  | raise (generation : Nat)
  | flushStage
  | sync (generation : Nat)
  /-- A payload joins the batch, which a large one flushes. A new binding may be refused. -/
  | sendUplink (generation : Nat) (target : TargetAddr) (payload : Bytes) (refused : Bool)

namespace CloseRun

def new : CloseRun := ⟨0, [], [], false, 0, [], 0⟩

variable (s : CloseRun)

def sync (generation : Nat) : CloseRun :=
  let taken := { s with closed := false, raisedBy := [] }
  if s.epoch ≠ generation then { taken with epoch := generation, flows := [], stageBatch := [] }
  else if s.closed then { taken with flows := [], stageBatch := [] }
  else taken

def ensureBinding (target : TargetAddr) (refused : Bool) : Option Nat × CloseRun :=
  match s.flows.find? fun b => b.target = target && !b.closed with
  | some b => (some b.number, s)
  | none =>
    let flows := s.flows.filter fun b => b.target ≠ target
    if refused then (none, { s with flows := flows })
    else
      let b : UplinkBinding := ⟨target, s.epoch, s.made, false⟩
      (some s.made, { s with flows := flows ++ [b], made := s.made + 1 })

def next (s : CloseRun) : CloseEvent → CloseRun
  | .removeSession g =>
    { s with
      flows := s.flows.map fun b => if b.generation = g then { b with closed := true } else b }
  | .raise g =>
    { s with
      closed := true
      raisedBy := g :: s.raisedBy
      barrier := if g = s.epoch then s.made else s.barrier }
  | .flushStage => { s with stageBatch := [] }
  | .sync g => s.sync g
  | .sendUplink g target payload refused =>
    let s := ((s.sync g).ensureBinding target refused).2
    { s with stageBatch := s.stageBatch ++ [payload] }

/-- The binding that a send uses. -/
def used : CloseEvent → Option Nat
  | .sendUplink g target _ refused => ((s.sync g).ensureBinding target refused).1
  | _ => none

/-- What a sync discards for a close is of a generation on which one came in. -/
def OwnClose : CloseEvent → Prop
  | .sync g | .sendUplink g _ _ _ =>
    g = s.epoch → s.closed = true → g ∈ s.raisedBy ∧ ∀ b ∈ s.flows, b.generation = g
  | _ => True

/-- A send uses no binding from before a close on the generation in use. -/
def Renewed (ev : CloseEvent) : Prop := ∀ n ∈ s.used ev, s.barrier ≤ n

/-- A close comes in on the generation in use. -/
def InUse : CloseEvent → Prop
  | .raise g => g = s.epoch
  | _ => True

structure Bound (s : CloseRun) : Prop where
  own : ∀ b ∈ s.flows, b.generation = s.epoch
  renewed : ∀ b ∈ s.flows, s.closed = false → s.barrier ≤ b.number
  le : s.barrier ≤ s.made

/-- A close that is not taken yet came in on the generation in use. -/
def Raised : Prop := s.closed = true → s.epoch ∈ s.raisedBy

variable {s}

lemma Bound.sync (h : s.Bound) (g : Nat) :
    (s.sync g).Bound ∧ (s.sync g).closed = false ∧ (s.sync g).barrier = s.barrier := by
  unfold CloseRun.sync
  split
  · exact ⟨⟨nofun, nofun, h.le⟩, rfl, rfl⟩
  split
  · exact ⟨⟨nofun, nofun, h.le⟩, rfl, rfl⟩
  · rename_i hclosed
    exact ⟨⟨h.own, fun b hb _ => h.renewed b hb (Bool.eq_false_iff.mpr hclosed), h.le⟩, rfl, rfl⟩

lemma Bound.ensureBinding (h : s.Bound) (hclosed : s.closed = false) (target : TargetAddr)
    (refused : Bool) : (s.ensureBinding target refused).2.Bound ∧
      (s.ensureBinding target refused).2.closed = false ∧
      ∀ n ∈ (s.ensureBinding target refused).1, s.barrier ≤ n := by
  have hkept : ∀ b ∈ s.flows.filter fun b => b.target ≠ target, b ∈ s.flows :=
    fun b hb => (mem_filter.mp hb).1
  unfold CloseRun.ensureBinding
  split
  · rename_i b hb
    refine ⟨h, hclosed, ?_⟩
    rintro n ⟨⟩
    exact h.renewed b (mem_of_find?_eq_some hb) hclosed
  dsimp only
  split
  · exact ⟨⟨fun b hb => h.own b (hkept b hb), fun b hb => h.renewed b (hkept b hb), h.le⟩,
      hclosed, nofun⟩
  refine ⟨⟨fun b hb => ?_, fun b hb _ => ?_, h.le.trans (Nat.le_succ _)⟩, hclosed, ?_⟩
  · rcases mem_append.mp hb with hb | hb
    · exact h.own b (hkept b hb)
    · rw [mem_singleton.mp hb]
  · rcases mem_append.mp hb with hb | hb
    · exact h.renewed b (hkept b hb) hclosed
    · rw [mem_singleton.mp hb]
      exact h.le
  · rintro n ⟨⟩
    exact h.le

lemma Bound.next (h : s.Bound) (ev : CloseEvent) : (s.next ev).Bound := by
  cases ev with
  | removeSession g =>
    refine ⟨fun b hb => ?_, fun b hb hclosed => ?_, h.le⟩ <;>
      obtain ⟨b₀, hb₀, rfl⟩ := mem_map.mp hb
    · split <;> exact h.own b₀ hb₀
    · split <;> exact h.renewed b₀ hb₀ hclosed
  | raise g =>
    refine ⟨h.own, nofun, ?_⟩
    unfold CloseRun.next
    dsimp only
    split
    · exact le_rfl
    · exact h.le
  | flushStage => exact ⟨h.own, h.renewed, h.le⟩
  | sync g => exact (h.sync g).1
  | sendUplink g target payload refused =>
    obtain ⟨hsync, hclosed, -⟩ := h.sync g
    obtain ⟨hown, hrenewed, hle⟩ := (hsync.ensureBinding hclosed target refused).1
    exact ⟨hown, hrenewed, hle⟩

lemma Bound.used_renewed (h : s.Bound) (ev : CloseEvent) : s.Renewed ev := by
  cases ev with
  | sendUplink g target payload refused =>
    obtain ⟨hsync, hclosed, hbarrier⟩ := h.sync g
    exact fun n hn => hbarrier ▸ (hsync.ensureBinding hclosed target refused).2.2 n hn
  | _ => exact nofun

lemma Raised.next (hr : s.Raised) (h : s.Bound) {ev : CloseEvent} (hev : s.InUse ev) :
    (s.next ev).Raised := by
  cases ev with
  | raise g => exact fun _ => mem_cons.mpr (.inl hev.symm)
  | removeSession | flushStage => exact hr
  | sync g =>
    intro hclosed
    exact absurd ((h.sync g).2.1.symm.trans hclosed) (by decide)
  | sendUplink g target payload refused =>
    intro hclosed
    obtain ⟨hsync, hnone, -⟩ := h.sync g
    exact absurd ((hsync.ensureBinding hnone target refused).2.1.symm.trans hclosed) (by decide)

lemma Bound.ownClose (h : s.Bound) (hr : s.Raised) (ev : CloseEvent) : s.OwnClose ev := by
  cases ev with
  | sync | sendUplink =>
    rintro rfl hclosed
    exact ⟨hr hclosed, h.own⟩
  | _ => exact trivial

end CloseRun

/-- No send uses a binding from before a close on the generation in use. If every close comes in on
the generation in use, a sync discards for a close only what is of its generation. -/
theorem close_acts_on_generation (events : List CloseEvent) :
    (∀ ev, (after CloseRun.next .new events).Renewed ev) ∧
      (Along CloseRun.next CloseRun.InUse .new events →
        Along CloseRun.next (fun s ev => s.OwnClose ev) .new events) := by
  have hnew : CloseRun.Bound .new := ⟨nofun, nofun, Nat.le_refl _⟩
  refine ⟨(after_of_kept (fun _ ev h => h.next ev) hnew events).used_renewed, fun huse => ?_⟩
  have hstep : ∀ (s : CloseRun) ev, s.Bound ∧ s.Raised → s.InUse ev →
      s.OwnClose ev ∧ (s.next ev).Bound ∧ (s.next ev).Raised :=
    fun s ev h hev => ⟨h.1.ownClose h.2 ev, h.1.next ev, h.2.next h.1 hev⟩
  exact Along.of_invariant hstep ⟨hnew, nofun⟩ huse

/-- A close of the first generation comes in behind the first send on the second one. -/
theorem late_close_discards :
    let s := after CloseRun.next .new [.sendUplink 1 (.domain "a" 53) [] false,
      .sendUplink 2 (.domain "a" 53) [] false, .removeSession 1, .raise 1]
    s.epoch = 2 ∧ s.raisedBy = [1] ∧ s.flows.map UplinkBinding.generation = [2] ∧
      (s.next (.sync 2)).flows.length = 0 := by
  decide

/-- A close of the generation in use is taken by the next send. -/
theorem close_acts_on_generation_taken :
    Along CloseRun.next (fun s ev => s.OwnClose ev) .new
      [.sendUplink 1 (.domain "a" 53) [] false, .removeSession 1, .raise 1,
        .sendUplink 1 (.domain "a" 53) [] false] :=
  (close_acts_on_generation _).2 ⟨trivial, trivial, rfl, trivial, trivial⟩

end MyQuic2
