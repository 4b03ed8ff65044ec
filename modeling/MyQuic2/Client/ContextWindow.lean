import MyQuic2.Client.Uplink

/-!
# The context window of a shared binding

The state and the counter of a binding are two atomics. Senders take slots of the
window, the control reader starts it again and confirms or closes the flow, each from
a task of its own, so that the accesses of one call fall between those of another.
-/

namespace MyQuic2

open List FlowBinding

/-- The operations on the state and the counter of a binding. -/
inductive BindingOp where
  | markOpen
  | markClosed
  | takeContextSlot
  | rearmContext

/-- The access that a call makes next. -/
inductive BindingAccess where
  | openState
  | openExchange
  | closeStore
  | slotState
  | slotLeft
  | slotLast
  | slotClear
  /-- Any other slot counts down from the number it read. -/
  | slotNext (left : UInt8)
  | rearmState
  | rearmStore
  | rearmExchange
  deriving DecidableEq

/-- What a call returns. -/
inductive BindingReturn where
  | unit
  | slot (owed : Bool)
  deriving DecidableEq

/-- The first access of an operation. -/
def BindingOp.entry : BindingOp → BindingAccess
  | markOpen => .openState
  | markClosed => .closeStore
  | takeContextSlot => .slotState
  | rearmContext => .rearmState

/-- Exchange one state for another; a binding in any other state stays as it is. -/
def FlowBinding.exchange (b : FlowBinding) (old new : FlowState) : FlowBinding :=
  if b.state = old then { b with state := new } else b

/-- One atomic access. -/
def FlowBinding.access (b : FlowBinding) :
    BindingAccess → FlowBinding × Then BindingAccess BindingReturn
  | .openState => (b, if b.state = .opening then .goto .openExchange else .done .unit)
  | .openExchange => (b.exchange .opening .opened, .done .unit)
  | .closeStore => (b.markClosed, .done .unit)
  | .slotState => (b, if b.state ≠ .opening then .done (.slot false) else .goto .slotLeft)
  | .slotLeft => (b, .goto (if b.contextLeft ≤ 1 then .slotLast else .slotNext b.contextLeft))
  | .slotLast =>
    -- Lost to a close or to another consumer: the loop reads the state again.
    (b.exchange .opening .opened, .goto (if b.state = .opening then .slotClear else .slotState))
  | .slotClear => ({ b with contextLeft := 0 }, .done (.slot true))
  | .slotNext left =>
    if b.contextLeft = left then ({ b with contextLeft := left - 1 }, .done (.slot true))
    else (b, .goto .slotState)
  | .rearmState => (b, if b.state = .closed then .done .unit else .goto .rearmStore)
  | .rearmStore => ({ b with contextLeft := r3ContextRepeats }, .goto .rearmExchange)
  | .rearmExchange => (b.exchange .opened .opening, .done .unit)

def bindingProgram : Program FlowBinding BindingOp BindingAccess BindingReturn :=
  ⟨BindingOp.entry, access⟩

/-- A binding with the tasks that use it. -/
abbrev BindingPool := Pool FlowBinding BindingAccess BindingReturn

namespace FlowBinding

/-- What an operation does when it runs alone. -/
def apply (b : FlowBinding) : BindingOp → FlowBinding × BindingReturn
  | .markOpen => (b.markOpen, .unit)
  | .markClosed => (b.markClosed, .unit)
  | .takeContextSlot => (b.takeContextSlot.2, .slot b.takeContextSlot.1)
  | .rearmContext => (b.rearmContext, .unit)

variable {b : FlowBinding}

variable {new : FlowState}

lemma exchange_of_eq {old : FlowState} (h : b.state = old) :
    b.exchange old new = { b with state := new } := by
  rw [exchange, if_pos h]

lemma exchange_of_ne {old : FlowState} (h : b.state ≠ old) : b.exchange old new = b := by
  rw [exchange, if_neg h]

lemma state_exchange_of_closed (h : b.state = .closed) (old : FlowState) (hold : old ≠ .closed) :
    (b.exchange old new).state = .closed := by
  rw [exchange_of_ne (fun heq => hold (heq.symm.trans h)), h]

lemma runs_markOpen : bindingProgram.Runs b .openState b.markOpen .unit := by
  by_cases h : b.state = .opening
  · have hload : bindingProgram.step b .openState = (b, .goto .openExchange) := by
      simp [bindingProgram, access, h]
    exact .goto hload (.done (by simp [bindingProgram, access, markOpen, exchange, h]))
  · exact .done (by simp [bindingProgram, access, markOpen, h])

lemma runs_takeContextSlot :
    bindingProgram.Runs b .slotState b.takeContextSlot.2 (.slot b.takeContextSlot.1) := by
  by_cases h : b.state = .opening
  · have hload : bindingProgram.step b .slotState = (b, .goto .slotLeft) := by
      simp [bindingProgram, access, h]
    refine .goto hload ?_
    by_cases hleft : b.contextLeft ≤ 1
    · have hlast : bindingProgram.step b .slotLeft = (b, .goto .slotLast) := by
        simp [bindingProgram, access, hleft]
      have hwon : bindingProgram.step b .slotLast =
          ({ b with state := .opened }, .goto .slotClear) := by
        simp [bindingProgram, access, exchange_of_eq h, h]
      refine .goto hlast (.goto hwon (.done ?_))
      simp [bindingProgram, access, takeContextSlot, h, hleft]
    · have hnext : bindingProgram.step b .slotLeft = (b, .goto (.slotNext b.contextLeft)) := by
        simp [bindingProgram, access, hleft]
      refine .goto hnext (.done ?_)
      simp [bindingProgram, access, takeContextSlot, h, hleft]
  · exact .done (by simp [bindingProgram, access, takeContextSlot, h])

lemma runs_rearmContext : bindingProgram.Runs b .rearmState b.rearmContext .unit := by
  by_cases h : b.state = .closed
  · exact .done (by simp [bindingProgram, access, rearmContext, h])
  have hload : bindingProgram.step b .rearmState = (b, .goto .rearmStore) := by
    simp [bindingProgram, access, h]
  have hstore : bindingProgram.step b .rearmStore =
      ({ b with contextLeft := r3ContextRepeats }, .goto .rearmExchange) := rfl
  refine .goto hload (.goto hstore (.done ?_))
  cases hstate : b.state with
  | opening | opened => simp [bindingProgram, access, exchange, rearmContext, hstate]
  | closed => exact absurd hstate h

/-- Access by access, an operation that runs alone does what it does as a whole. -/
lemma runs_apply (op : BindingOp) :
    bindingProgram.Runs b op.entry (b.apply op).1 (b.apply op).2 := by
  cases op with
  | markOpen => exact b.runs_markOpen
  | markClosed => exact .done rfl
  | takeContextSlot => exact b.runs_takeContextSlot
  | rearmContext => exact b.runs_rearmContext

end FlowBinding

namespace BindingPool

variable {i : Nat} {place : BindingAccess} {q : BindingPool} {e : TaskEvent BindingOp}

/-- Wherever the other tasks stand, a task that runs alone ends its call as if it were one step. -/
theorem call_alone (p : BindingPool) (hi : p.tasks i = none) (op : BindingOp) :
    ∃ n, after bindingProgram.next p (.call i op :: List.replicate n (.step i)) =
      ⟨(p.shared.apply op).1, p.tasks, p.returned ++ [(i, (p.shared.apply op).2)]⟩ := by
  obtain ⟨n, hn⟩ := (p.shared.runs_apply op).alone i p.tasks p.returned
  have hidle : Function.update p.tasks i none = p.tasks := by
    rw [← hi, Function.update_eq_self]
  rw [hidle] at hn
  have hbegun : bindingProgram.next p (.call i op) =
      ⟨p.shared, Function.update p.tasks i (some op.entry), p.returned⟩ := by
    simp [Program.next, Pool.move, hi, bindingProgram]
  exact ⟨n, by rw [after, hbegun, hn]⟩

/-- Another task stands between its load and its exchange. -/
theorem call_alone_between :
    let p := after bindingProgram.next (.new (.new 2 7 (.domain "" 0))) [.call 1 .markOpen, .step 1]
    p.tasks 1 = some .openExchange ∧
      ∃ n, after bindingProgram.next p (.call 0 .takeContextSlot :: List.replicate n (.step 0)) =
        ⟨p.shared.takeContextSlot.2, p.tasks,
          p.returned ++ [(0, .slot p.shared.takeContextSlot.1)]⟩ :=
  ⟨by decide, call_alone _ (by decide) .takeContextSlot⟩

lemma closed_access (b : FlowBinding) (place : BindingAccess) (h : b.state = .closed) :
    (b.access place).1.state = .closed := by
  cases place with
  | openExchange | slotLast => exact state_exchange_of_closed h .opening (by decide)
  | rearmExchange => exact state_exchange_of_closed h .opened (by decide)
  | closeStore => rfl
  | slotNext left =>
    simp only [access]
    split
    · exact h
    · exact h
  | openState | slotState | slotLeft | slotClear | rearmState | rearmStore => exact h

lemma closed_after (p : BindingPool) (h : p.shared.state = .closed)
    (es : List (TaskEvent BindingOp)) : (after bindingProgram.next p es).shared.state = .closed :=
  Program.shared_after (P := fun b : FlowBinding => b.state = .closed) closed_access h es

/-- The result of a call that asked for a slot. -/
def slotOf (x : Nat × BindingReturn) : Option Bool :=
  match x.2 with
  | .slot owed => some owed
  | .unit => none

/-- What `take_context_slot` returned, in order. -/
def slots (p : BindingPool) : List Bool := p.returned.filterMap slotOf

/-- Accesses of a confirmation. -/
def confirms : BindingAccess → Bool
  | .openState | .openExchange => true
  | _ => false

/-- Accesses that may end a window which has slots left. -/
def shortens : BindingAccess → Bool
  | .slotLast | .slotClear => true
  | place => confirms place

/-- Nothing that began before a repair ended can shorten the window it starts: the counter is
full, no last slot is being taken and no confirmation is under way. -/
structure Settled (p : BindingPool) : Prop where
  full : p.shared.contextLeft = r3ContextRepeats
  quiet : p.Avoids shortens

/-- No confirmation is called, and no sender reads the state between the two writes of the last
slot. -/
def Calm (p : BindingPool) : TaskEvent BindingOp → Prop
  | .call _ op => op ≠ .markOpen
  | .step i => p.tasks i = some .slotState → ¬p.At .slotClear

/-- After the first slot: the flow leaves its opening only with the second one. -/
structure Halfway (p : BindingPool) : Prop where
  taken : p.shared.state ≠ .opening → p.At .slotClear
  quiet : p.Avoids confirms

/-- How far a window has come with the slots it gave since the repair. -/
inductive Window (p : BindingPool) : List Bool → Prop where
  | closed {given} (h : p.shared.state = .closed) : Window p given
  | fresh (hopening : p.shared.state = .opening) (h : Settled p) : Window p []
  | halfway (h : Halfway p) : Window p [true]
  | spent {rest} : Window p (true :: true :: rest)

lemma confirms_of_shortens (h : shortens place = false) : confirms place = false := by
  cases place <;> first | rfl | exact h

/-- An event adds what the call it ends returned. -/
lemma slots_next (p : BindingPool) : ∃ more, slots (bindingProgram.next p e) = p.slots ++ more := by
  have hmoves := bindingProgram.moves_next p e
  generalize bindingProgram.next p e = q at hmoves ⊢
  cases hmoves with
  | idle | begun _ | went _ _ => exact ⟨[], (append_nil _).symm⟩
  | ended _ _ => exact ⟨_, filterMap_append⟩

/-- What an event makes of a window: it goes on with the slots that the event added. -/
def Follows (given : List Bool) (p q : BindingPool) : Prop :=
  ∃ more, q.slots = p.slots ++ more ∧ Window q (given ++ more)

variable {given : List Bool} {p : BindingPool}

lemma Follows.silent (hret : q.returned = p.returned) (h : Window q given) : Follows given p q :=
  ⟨[], by simp [slots, hret], by rwa [append_nil]⟩

lemma Follows.slot {owed : Bool} (hret : q.returned = p.returned ++ [(i, .slot owed)])
    (h : Window q (given ++ [owed])) : Follows given p q :=
  ⟨[owed], by simp [slots, hret, slotOf], h⟩

lemma Follows.unit (hret : q.returned = p.returned ++ [(i, .unit)]) (h : Window q given) :
    Follows given p q :=
  ⟨[], by simp [slots, hret, slotOf], by rwa [append_nil]⟩

/-- What an access leaves of a full counter: it stays full until a slot is granted. -/
def FullThen (b : FlowBinding) : Then BindingAccess BindingReturn → Prop
  | .goto place =>
    b.state = .opening ∧ b.contextLeft = r3ContextRepeats ∧ shortens place = false
  | .done (.slot owed) => owed = true ∧ b.state = .opening
  | .done .unit =>
    b.state = .closed ∨ (b.state = .opening ∧ b.contextLeft = r3ContextRepeats)

lemma access_of_full {b : FlowBinding} (hopening : b.state = .opening)
    (hfull : b.contextLeft = r3ContextRepeats) (hplace : shortens place = false) :
    FullThen (b.access place).1 (b.access place).2 := by
  cases place with
  | slotNext left =>
    by_cases hleft : b.contextLeft = left
    · simp [access, FullThen, hleft, hopening]
    · rw [hfull] at hleft
      simp [access, FullThen, hleft, hopening, hfull, shortens, confirms]
  | slotLeft =>
    simp [access, FullThen, hopening, hfull, r3ContextRepeats, shortens, confirms]
  | slotState | rearmState | rearmStore =>
    simp [access, FullThen, hopening, hfull, shortens, confirms]
  | closeStore => exact .inl rfl
  | rearmExchange =>
    simp [access, exchange, FullThen, hopening, hfull]
  | openState | openExchange | slotLast | slotClear => exact absurd hplace (by decide)

/-- A window that gave no slot yet goes on without a refusal. -/
lemma Settled.follows (hopening : p.shared.state = .opening) (h : Settled p) (hcalm : Calm p e) :
    Follows [] p (bindingProgram.next p e) := by
  have hmoves := bindingProgram.moves_next p e
  generalize bindingProgram.next p e = q at hmoves ⊢
  cases hmoves with
  | idle => exact .silent rfl (.fresh hopening h)
  | @begun i op hi =>
    refine .silent rfl (.fresh hopening ⟨h.full, h.quiet.move i ?_⟩)
    rintro place ⟨⟩
    cases op with
    | markOpen => exact absurd rfl hcalm
    | markClosed | takeContextSlot | rearmContext => rfl
  | @went i place s dest hi hstep =>
    have hthen := access_of_full hopening h.full (h.quiet place ⟨i, hi⟩)
    rw [show p.shared.access place = (s, .goto dest) from hstep] at hthen
    obtain ⟨hstate, hfull, hdest⟩ := hthen
    refine .silent rfl (.fresh hstate ⟨hfull, h.quiet.move i ?_⟩)
    rintro place ⟨⟩
    exact hdest
  | @ended i place s r hi hstep =>
    have hthen := access_of_full hopening h.full (h.quiet place ⟨i, hi⟩)
    rw [show p.shared.access place = (s, .done r) from hstep] at hthen
    have hquiet : (p.move i none).Avoids shortens := h.quiet.move i (by rintro _ ⟨⟩)
    cases r with
    | slot owed =>
      obtain ⟨rfl, hstate⟩ := hthen
      exact .slot rfl (.halfway ⟨fun hne => absurd hstate hne,
        fun place hat => confirms_of_shortens (hquiet place hat)⟩)
    | unit =>
      rcases hthen with hclosed | ⟨hstate, hfull⟩
      · exact .unit rfl (.closed hclosed)
      · exact .unit rfl (.fresh hstate ⟨hfull, hquiet⟩)

/-- What an access leaves when one slot was given: a flow that leaves its opening does so for a
last slot. -/
def HalfThen (b : FlowBinding) (place : BindingAccess) (b' : FlowBinding) :
    Then BindingAccess BindingReturn → Prop
  | .goto dest => place ≠ .slotClear ∧ confirms dest = false ∧
      (b'.state = b.state ∨ dest = .slotClear)
  | .done (.slot owed) => owed = true ∨ (place = .slotState ∧ b.state ≠ .opening)
  | .done .unit => place ≠ .slotClear ∧
      (b'.state = .closed ∨ b'.state = .opening ∨ b'.state = b.state)

lemma access_halfway (b : FlowBinding) (hplace : confirms place = false) :
    HalfThen b place (b.access place).1 (b.access place).2 := by
  cases place with
  | slotNext left =>
    by_cases hleft : b.contextLeft = left
    · simp [access, HalfThen, hleft]
    · simp [access, HalfThen, hleft, confirms]
  | slotState =>
    by_cases hstate : b.state = .opening
    · simp [access, HalfThen, hstate, confirms]
    · simp [access, HalfThen, hstate]
  | slotLeft =>
    by_cases hleft : b.contextLeft ≤ 1
    · simp [access, HalfThen, hleft, confirms]
    · simp [access, HalfThen, hleft, confirms]
  | slotLast =>
    by_cases hstate : b.state = .opening
    · simp [access, HalfThen, hstate, confirms]
    · simp [access, HalfThen, exchange, hstate, confirms]
  | slotClear => exact .inl rfl
  | rearmState =>
    by_cases hstate : b.state = .closed
    · simp [access, HalfThen, hstate]
    · simp [access, HalfThen, hstate, confirms]
  | rearmStore => simp [access, HalfThen, confirms]
  | rearmExchange =>
    by_cases hstate : b.state = .opened
    · simp [access, HalfThen, exchange, hstate]
    · simp [access, HalfThen, exchange, hstate]
  | closeStore => simp [access, markClosed, HalfThen]
  | openState | openExchange => exact absurd hplace (by decide)

/-- A window that gave one slot gives the other before it refuses. -/
lemma Halfway.follows (h : Halfway p) (hcalm : Calm p e) :
    Follows [true] p (bindingProgram.next p e) := by
  have hmoves := bindingProgram.moves_next p e
  generalize bindingProgram.next p e = q at hmoves ⊢
  cases hmoves with
  | idle => exact .silent rfl (.halfway h)
  | @begun i op hi =>
    refine .silent rfl (.halfway ⟨fun hne => (h.taken hne).call hi _, h.quiet.move i ?_⟩)
    rintro place ⟨⟩
    cases op with
    | markOpen => exact absurd rfl hcalm
    | markClosed | takeContextSlot | rearmContext => rfl
  | @went i place s dest hi hstep =>
    have hthen := access_halfway p.shared (h.quiet place ⟨i, hi⟩)
    rw [show p.shared.access place = (s, .goto dest) from hstep] at hthen
    obtain ⟨hclear, hdest, hstate⟩ := hthen
    refine .silent rfl (.halfway ⟨fun hne => ?_, h.quiet.move i ?_⟩)
    · rcases hstate with hsame | rfl
      · exact (h.taken (hsame ▸ hne)).move hi hclear _
      · exact ⟨i, Function.update_self ..⟩
    · rintro place ⟨⟩
      exact hdest
  | @ended i place s r hi hstep =>
    have hthen := access_halfway p.shared (h.quiet place ⟨i, hi⟩)
    rw [show p.shared.access place = (s, .done r) from hstep] at hthen
    have hquiet : (p.move i none).Avoids confirms := h.quiet.move i (by rintro _ ⟨⟩)
    cases r with
    | slot owed =>
      rcases hthen with rfl | ⟨rfl, hne⟩
      · exact .slot rfl .spent
      · exact absurd (h.taken hne) (hcalm hi)
    | unit =>
      obtain ⟨hclear, hclosed | hopening | hsame⟩ := hthen
      · exact .unit rfl (.closed hclosed)
      · exact .unit rfl (.halfway ⟨fun hne => absurd hopening hne, hquiet⟩)
      · exact .unit rfl (.halfway ⟨fun hne => (h.taken (hsame ▸ hne)).move hi hclear _, hquiet⟩)

lemma Window.follows (h : Window p given) (hcalm : Calm p e) :
    Follows given p (bindingProgram.next p e) := by
  obtain ⟨more, hmore⟩ := slots_next p
  cases h with
  | closed hclosed => exact ⟨more, hmore, .closed (closed_after p hclosed [e])⟩
  | fresh hopening hsettled => exact hsettled.follows hopening hcalm
  | halfway hhalf => exact hhalf.follows hcalm
  | spent => exact ⟨more, hmore, .spent⟩

/-- A window goes on through every calm run. -/
lemma Window.after (h : Window p given) {es : List (TaskEvent BindingOp)}
    (hcalm : Along bindingProgram.next Calm p es) :
    Follows given p (MyQuic2.after bindingProgram.next p es) := by
  induction es generalizing p given with
  | nil => exact .silent rfl h
  | cons e es ih =>
    obtain ⟨hhead, htail⟩ := hcalm
    obtain ⟨more, hmore, hwindow⟩ := h.follows hhead
    obtain ⟨rest, hrest, hlast⟩ := ih hwindow htail
    refine ⟨more ++ rest, ?_, by rwa [← append_assoc]⟩
    rw [MyQuic2.after, hrest, hmore, append_assoc]

/-- A window that is not closed gave its two slots before it refused one. -/
lemma Window.granted {before later : List Bool} (h : Window p given)
    (hopen : p.shared.state ≠ .closed) (hgiven : given = before ++ false :: later) :
    r3ContextRepeats.toNat ≤ before.count true := by
  cases h with
  | closed hclosed => exact absurd hclosed hopen
  | fresh _ _ => simp at hgiven
  | halfway _ =>
    cases before with
    | nil | cons _ _ => simp at hgiven
  | spent =>
    rcases before with _ | ⟨first, _ | ⟨second, before⟩⟩
    · simp at hgiven
    · simp at hgiven
    · obtain ⟨rfl, rfl, -⟩ := hgiven
      simp [r3ContextRepeats]

/-- The end of a repair starts a window if nothing that shortens it is under way. -/
lemma Settled.window (h : Settled p) (hi : p.tasks i = some .rearmExchange)
    (hopen : p.shared.state ≠ .closed) : Window (bindingProgram.next p (.step i)) [] := by
  have hnext : bindingProgram.next p (.step i) =
      ⟨p.shared.exchange .opened .opening, Function.update p.tasks i none,
        p.returned ++ [(i, .unit)]⟩ := by
    simp [Program.next, hi, bindingProgram, access, Pool.move]
  have hquiet : (p.move i none).Avoids shortens := h.quiet.move i (by rintro _ ⟨⟩)
  rw [hnext]
  cases hstate : p.shared.state with
  | closed => exact absurd hstate hopen
  | opening =>
    rw [exchange_of_ne (by simp [hstate])]
    exact .fresh hstate ⟨h.full, hquiet⟩
  | opened =>
    rw [exchange_of_eq hstate]
    exact .fresh rfl ⟨h.full, hquiet⟩

/-- A closed binding stays closed. A repair that ends with a full counter, no last slot being
taken and no confirmation under way gives its slots before one is refused. -/
theorem rearm_gives_slots (p : BindingPool) (es : List (TaskEvent BindingOp)) :
    (p.shared.state = .closed → (MyQuic2.after bindingProgram.next p es).shared.state = .closed) ∧
    ∀ i, p.tasks i = some .rearmExchange → p.shared.state ≠ .closed → Settled p →
      Along bindingProgram.next Calm (bindingProgram.next p (.step i)) es →
      (MyQuic2.after bindingProgram.next p (.step i :: es)).shared.state ≠ .closed →
      ∀ before later,
        slots (MyQuic2.after bindingProgram.next p (.step i :: es)) =
          slots p ++ (before ++ false :: later) → r3ContextRepeats.toNat ≤ before.count true := by
  refine ⟨fun h => closed_after p h es, ?_⟩
  intro i hi hopen hsettled hcalm hlast before later hslots
  obtain ⟨given, hgiven, hwindow⟩ := (hsettled.window hi hopen).after hcalm
  have hstep : slots (bindingProgram.next p (.step i)) = slots p := by
    simp [slots, Program.next, hi, bindingProgram, access, slotOf]
  rw [MyQuic2.after, hgiven, hstep] at hslots
  exact hwindow.granted hlast (append_cancel_left hslots)

/-- Only one task uses the binding. -/
def Sole (i : Nat) (p : BindingPool) : Prop := ∀ j, j ≠ i → p.tasks j = none

/-- A slot that the one sender asks for, or a step of its call. -/
def Sends (i : Nat) (e : TaskEvent BindingOp) : Prop := e = .call i .takeContextSlot ∨ e = .step i

/-- A single sender disturbs no window. -/
lemma Sole.calm (h : Sole i p) {es : List (TaskEvent BindingOp)} (hes : ∀ e ∈ es, Sends i e) :
    Along bindingProgram.next Calm p es := by
  induction es generalizing p with
  | nil => trivial
  | cons e es ih =>
    have hnext : Sole i (bindingProgram.next p e) := by
      intro j hj
      have hmoves := bindingProgram.moves_next p e
      generalize bindingProgram.next p e = q at hmoves ⊢
      rcases hes e (mem_cons_self ..) with rfl | rfl <;>
        cases hmoves <;> simp [Pool.move, hj, h j hj]
    refine ⟨?_, ih hnext fun e he => hes e (mem_cons_of_mem _ he)⟩
    rcases hes e (mem_cons_self ..) with rfl | rfl
    · exact fun heq => BindingOp.noConfusion heq
    rintro hi ⟨j, hj⟩
    by_cases hji : j = i
    · subst hji
      exact absurd (Option.some.inj (hi.symm.trans hj)) (by decide)
    · exact absurd (hj.symm.trans (h j hji)) (Option.some_ne_none _)

/-- A binding of a resolver whose repair is about to end. -/
private def repairing : BindingPool :=
  ⟨.new 2 1 (.ip (.v4 (.new 9 9 9 9) 53)), Function.update (fun _ => none) 0 (some .rearmExchange),
    []⟩

/-- One sender after the repair: two slots, then a refusal. -/
private def senderAfter : List (TaskEvent BindingOp) :=
  [.call 1 .takeContextSlot, .step 1, .step 1, .step 1,
    .call 1 .takeContextSlot, .step 1, .step 1, .step 1, .step 1,
    .call 1 .takeContextSlot, .step 1]

lemma settled_repairing : Settled repairing := by
  refine ⟨rfl, ?_⟩
  rintro place ⟨j, hj⟩
  by_cases h0 : j = 0
  · subst h0
    obtain rfl : BindingAccess.rearmExchange = place := Option.some.inj hj
    rfl
  · simp [repairing, h0] at hj

lemma calm_senderAfter :
    Along bindingProgram.next Calm (bindingProgram.next repairing (.step 0)) senderAfter := by
  have hsole : Sole 1 (bindingProgram.next repairing (.step 0)) := by
    intro j _
    by_cases h0 : j = 0 <;> simp [Program.next, repairing, bindingProgram, Pool.move, h0, access]
  exact hsole.calm (by simp [senderAfter, Sends])

theorem rearm_gives_slots_to_one_sender :
    slots (MyQuic2.after bindingProgram.next repairing (.step 0 :: senderAfter)) =
      slots repairing ++ ([true, true] ++ false :: []) ∧
    r3ContextRepeats.toNat ≤ [true, true].count true := by
  have hslots : slots (MyQuic2.after bindingProgram.next repairing (.step 0 :: senderAfter)) =
      slots repairing ++ ([true, true] ++ false :: []) := by decide
  exact ⟨hslots, (rearm_gives_slots repairing senderAfter).2 0 rfl (by decide) settled_repairing
    calm_senderAfter (by decide) [true, true] [] hslots⟩

/-- A repair between the last slot's reading of the counter and its exchange of the state is
lost. -/
theorem rearm_lost_to_last_slot : let sender : List (TaskEvent BindingOp) :=
      [.call 1 .takeContextSlot, .step 1, .step 1, .step 1,
        .call 1 .takeContextSlot, .step 1, .step 1]
    let p := MyQuic2.after bindingProgram.next (.new (.new 2 1 (.ip (.v4 (.new 9 9 9 9) 53))))
      (sender ++ [.call 2 .rearmContext, .step 2, .step 2])
    let later : List (TaskEvent BindingOp) := [.step 1, .step 1, .call 3 .takeContextSlot, .step 3]
    let q := MyQuic2.after bindingProgram.next p (.step 2 :: later)
    p.tasks 2 = some .rearmExchange ∧ p.shared.state = .opening ∧ p.tasks 3 = none ∧
      q.returned = p.returned ++ [(2, .unit), (1, .slot true), (3, .slot false)] ∧
      q.shared.state = .opened := by
  decide

end BindingPool

end MyQuic2
