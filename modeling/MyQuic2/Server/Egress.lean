import MyQuic2.Server.Effects

/-!
# Where a connection sends

A connection that must not reach private addresses sends to global ones only,
whatever its memos, pins and queues hold. Every way to a socket asks the policy
at the send itself, or carries addresses that have passed it.
-/

namespace MyQuic2

open List

lemma isGlobalIp_mapForDual (dst : SocketAddr) :
    isGlobalIp (mapForDual dst).ip = isGlobalIp dst.ip := by
  cases dst with
  | v4 a port => exact isGlobalIp_embed .mapped a
  | v6 a port flow scope => rfl

namespace ServerConn

variable {allowPrivate : Bool}

/-- The second state has sent what the first had sent, and more to global addresses only. -/
def Confined (c c' : ServerConn allowPrivate) : Prop :=
  ∃ more, c'.sent = c.sent ++ more ∧ ∀ x ∈ more, isGlobalIp x.dst.ip = true

namespace Confined

variable {c c₁ c₂ : ServerConn allowPrivate}

lemma of_sent_eq (h : c₁.sent = c.sent) : Confined c c₁ :=
  ⟨[], by rw [h, append_nil], nofun⟩

lemma trans (h₁ : Confined c c₁) (h₂ : Confined c₁ c₂) : Confined c c₂ := by
  obtain ⟨more₁, heq₁, hglobal₁⟩ := h₁
  obtain ⟨more₂, heq₂, hglobal₂⟩ := h₂
  refine ⟨more₁ ++ more₂, by rw [heq₂, heq₁, append_assoc], ?_⟩
  intro x hx
  rcases mem_append.mp hx with hx | hx
  · exact hglobal₁ x hx
  · exact hglobal₂ x hx

/-- A step that sends nothing may follow. -/
lemma same (h : Confined c c₁) (heq : c₂.sent = c₁.sent) : Confined c c₂ :=
  h.trans (of_sent_eq heq)

end Confined

variable {sess : UInt32}

section

variable (c : ServerConn allowPrivate) (id : UInt32)

@[simp] lemma sent_storeDest (nowMs : Nat) (dest : Option Named) :
    (c.storeDest nowMs sess dest).sent = c.sent := by
  cases dest <;> rfl

@[simp] lemma sent_install (target : TargetAddr) (resolved : List SocketAddr) :
    (c.install sess id target resolved).sent = c.sent := by
  unfold install
  dsimp only
  repeat' split
  all_goals rfl

@[simp] lemma sent_installUnsolicited (src : SocketAddr) :
    (c.installUnsolicited sess src).sent = c.sent := by
  unfold installUnsolicited
  dsimp only
  repeat' split
  all_goals rfl

@[simp] lemma sent_removeFlow : (c.removeFlow id).sent = c.sent := by
  unfold removeFlow
  split <;> rfl

@[simp] lemma sent_putWaiter (t : Nat) (w : Waiter allowPrivate) :
    (c.putWaiter t w).sent = c.sent := rfl

@[simp] lemma sent_putLookup (t : Nat) (l : Lookup allowPrivate)
    (stage : LookupStage allowPrivate) : (c.putLookup t l stage).sent = c.sent := rfl

end

section

variable {hasher : GateHasher} {c c' : ServerConn false}

section

variable (a : TaskEnv) (sess : UInt32) (target : TargetAddr) (payload : Bytes)

/-- A send to an address that passes the policy. -/
lemma confined_send (c : ServerConn false) (sess : UInt32) (target : TargetAddr)
    {dst : SocketAddr} (payload : Bytes) (hallow : fastAllow false dst = true) :
    Confined c (c.send sess target dst payload) := by
  refine ⟨_, rfl, ?_⟩
  intro x hx
  rw [mem_singleton.mp hx, isGlobalIp_mapForDual]
  exact hallow

lemma Act.confined {item : Item} {I : UInt32 → Prop} {D : SocketAddr → Prop}
    (h : Act hasher item I D c c') : Confined c c' := by
  cases h with
  | send hdst hallow => exact confined_send c item.sess item.target item.payload hallow
  | store nowMs hdest => exact .of_sent_eq (sent_storeDest ..)
  | create _ _ | pin _ _ | claim | spawn _ _ | await _ _ | queue _ | begin _ _ _ =>
    exact .of_sent_eq rfl
  | install id hid hres => exact .of_sent_eq (sent_install ..)

lemma confined_trySend {addrs : List SocketAddr}
    (hallow : ∀ addr ∈ addrs, fastAllow false addr = true) (first : Bool) (c : ServerConn false) :
    Confined c (trySend a sess target payload addrs first c).2 := by
  induction addrs generalizing first c with
  | nil => exact .of_sent_eq rfl
  | cons addr addrs ih =>
    have hrest : ∀ x ∈ addrs, fastAllow false x = true :=
      fun x hx => hallow x (mem_cons_of_mem addr hx)
    have hsend := confined_send c sess target payload (hallow addr (mem_cons_self ..))
    unfold trySend
    split
    · exact ih hrest false c
    split
    · exact hsend
    · exact hsend.trans (ih hrest false _)
    · exact hsend

lemma confined_sendAll {dst : SocketAddr} (hallow : fastAllow false dst = true)
    (payloads : List Bytes) (c : ServerConn false) :
    Confined c (payloads.foldl (fun c payload => c.send sess target dst payload) c) := by
  induction payloads generalizing c with
  | nil => exact .of_sent_eq rfl
  | cons payload payloads ih => exact (confined_send c sess target payload hallow).trans (ih _)

lemma confined_runWaiter (t : Nat) (w : Waiter false) (c : ServerConn false) :
    Confined c (c.runWaiter hasher a t w) := by
  unfold runWaiter
  cases w.stage with
  | sending addrs =>
    dsimp only
    split
    · exact .of_sent_eq rfl
    have htry := confined_trySend a w.session (.domain w.host w.port) w.payload addrs.allowed true c
    split <;> rename_i heq
    · rw [Allowed.all] at heq
      rw [heq] at htry
      exact htry.same rfl
    · rw [Allowed.all] at heq
      rw [heq] at htry
      refine htry.same ?_
      split <;> simp
  | _ =>
    -- The other stages send nothing.
    dsimp only
    repeat' split
    all_goals exact .of_sent_eq (by simp)

lemma confined_runLookup (t : Nat) (l : Lookup false) : Confined c (c.runLookup a t l) := by
  unfold runLookup
  cases l.stage with
  | sending addrs =>
    have hallow := addrs.allowed addrs.first (mem_cons_self ..)
    dsimp only
    split
    · exact .of_sent_eq rfl
    · exact (confined_send c l.session (.domain l.host l.port) l.payload hallow).same rfl
  | draining addrs =>
    have hallow := addrs.allowed addrs.first (mem_cons_self ..)
    dsimp only
    split
    · exact .of_sent_eq rfl
    have htaken : Confined c
        { c with opens := (c.opens.takePendingPayloads l.session l.id).2 } := .of_sent_eq rfl
    exact (htaken.trans (confined_sendAll l.session (.domain l.host l.port) hallow _ _)).same rfl
  | _ =>
    dsimp only
    repeat' split
    all_goals exact .of_sent_eq (by simp)

end

lemma confined_next (z : Sizes) (ev : Event) : Confined c (next hasher z c ev) := by
  unfold next
  cases ev with
  | datagram d env =>
    dsimp only
    split
    · have hact : ∀ item c₁ c₂, Confined c c₁ →
          Act hasher item (fun _ => True) (fun _ => True) c₁ c₂ → Confined c c₂ :=
        fun item c₁ c₂ h hact => h.trans hact.confined
      exact Kept.ingress hact (fun c₁ reasm h => h.same rfl) (.of_sent_eq rfl) d
    · exact .of_sent_eq rfl
  | park | sessClose sess | closeStep =>
    dsimp only
    split <;> exact .of_sent_eq rfl
  | flowClose id =>
    dsimp only
    split
    · exact .of_sent_eq (sent_removeFlow ..)
    · exact .of_sent_eq rfl
  | unsolicited sess src => exact .of_sent_eq (sent_installUnsolicited ..)
  | reap sess => exact .of_sent_eq rfl
  | waiter t a =>
    dsimp only
    split
    · exact confined_runWaiter ..
    · exact .of_sent_eq rfl
  | lookup t a =>
    dsimp only
    split
    · exact confined_runLookup ..
    · exact .of_sent_eq rfl

end

/-- A connection that must not reach private addresses adds only sends to global addresses,
whatever state it starts from and whatever happens to it. -/
theorem sends_global (hasher : UInt32 → UInt16 → Bytes → UInt64) (z : Sizes)
    (c : ServerConn false) (es : List Event) :
    ∃ more, (after (next hasher z) c es).sent = c.sent ++ more ∧
      ∀ x ∈ more, isGlobalIp x.dst.ip = true := by
  induction es generalizing c with
  | nil => exact Confined.of_sent_eq rfl
  | cons ev es ih => exact (confined_next z ev).trans (ih _)

end ServerConn

end MyQuic2
