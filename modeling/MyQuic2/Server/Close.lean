import MyQuic2.Server.Effects

/-!
# Sessions that were closed

The close of a session flags the lookups of the session before it removes the
session. A flagged lookup that carries only the payload that started it never
publishes the session again. Followers are not asked for the flag, so one that
waits behind a flagged lookup brings the session back.
-/

namespace MyQuic2

open AList Option ServerConn PendingOpens

namespace PendingOpens

/-- A pending entry stays, and stays flagged. -/
def KeepsAt (p p' : PendingOpens) (key : UInt32 × UInt32) : Prop :=
  ∀ e, p.entries.lookup key = some e →
    ∃ e', p'.entries.lookup key = some e' ∧ (e.cancelled = true → e'.cancelled = true)

variable {p p' : PendingOpens} {key : UInt32 × UInt32}

lemma KeepsAt.refl (p : PendingOpens) (key : UInt32 × UInt32) : KeepsAt p p key :=
  fun e he => ⟨e, he, id⟩

lemma KeepsAt.isSome (h : KeepsAt p p' key) (hsome : (p.entries.lookup key).isSome) :
    (p'.entries.lookup key).isSome := by
  obtain ⟨e, he⟩ := isSome_iff_exists.mp hsome
  obtain ⟨e', he', -⟩ := h e he
  rw [he']
  rfl

variable {id sess : UInt32}

lemma KeepsAt.isCancelled (h : KeepsAt p p' (sess, id)) (hflag : p.isCancelled sess id = true) :
    p'.isCancelled sess id = true := by
  unfold PendingOpens.isCancelled at hflag ⊢
  cases he : p.entries.lookup (sess, id) with
  | none =>
    rw [he] at hflag
    cases hflag
  | some e =>
    obtain ⟨e', he', hkeep⟩ := h e he
    rw [he] at hflag
    rw [he']
    exact hkeep hflag

/-- Another entry at the same key keeps it, when the flag is the same. -/
lemma keepsAt_insert {e e₀ : PendingLookup} {k : UInt32 × UInt32}
    (hfound : p.entries.lookup k = some e₀) (hflag : e.cancelled = e₀.cancelled) (bytes : Nat) :
    KeepsAt p ⟨p.entries.insert k e, bytes⟩ key := by
  intro e' he'
  by_cases hkey : key = k
  · subst hkey
    rw [hfound] at he'
    cases he'
    exact ⟨e, lookup_insert _, by rw [hflag]; exact id⟩
  · exact ⟨e', by rw [lookup_insert_ne hkey]; exact he', id⟩

lemma keepsAt_queuePendingOpenPayload (target : TargetAddr) (payload : Bytes) :
    KeepsAt p (p.queuePendingOpenPayload sess id target payload).2 key := by
  have hrefl := KeepsAt.refl p key
  unfold queuePendingOpenPayload
  split
  · exact hrefl
  rename_i entry hentry
  split
  · exact hrefl
  split
  · exact hrefl
  split
  · exact hrefl
  split
  · exact hrefl
  rename_i p₁ hreserve
  rw [entries_reservePendingBytes hreserve]
  refine keepsAt_insert hentry ?_ _
  rfl

lemma keepsAt_beginPendingOpen {start : PendingStart} {target : TargetAddr}
    (h : p.beginPendingOpen sess id target = (start, p')) : KeepsAt p p' key := by
  unfold beginPendingOpen at h
  split at h
  · cases h
    exact .refl p key
  rename_i hnone
  split at h
  · cases h
    exact .refl p key
  cases h
  intro e he
  have hkey : key ≠ (sess, id) := by
    rintro rfl
    rw [he] at hnone
    exact hnone rfl
  exact ⟨e, by dsimp only; rw [lookup_insert_ne hkey]; exact he, fun h => h⟩

lemma beginPendingOpen_started {target : TargetAddr}
    (h : p.beginPendingOpen sess id target = (.started, p')) :
    p.entries.lookup (sess, id) = none ∧ (p'.entries.lookup (sess, id)).isSome := by
  unfold beginPendingOpen at h
  split at h
  · cases h
  rename_i hnone
  split at h
  · cases h
  cases h
  refine ⟨by simpa using hnone, ?_⟩
  rw [lookup_insert]
  rfl

lemma keepsAt_takePendingPayloads : KeepsAt p (p.takePendingPayloads sess id).2 key := by
  unfold takePendingPayloads
  split
  · exact .refl p key
  rename_i entry hentry
  refine keepsAt_insert hentry ?_ _
  rfl

lemma keepsAt_dropPending (hkey : key ≠ (sess, id)) : KeepsAt p (p.dropPending sess id) key := by
  intro e he
  obtain ⟨e', he', hflag⟩ := keepsAt_takePendingPayloads e he
  refine ⟨e', ?_, hflag⟩
  unfold dropPending
  rw [lookup_erase_ne hkey]
  exact he'

lemma keepsAt_cancelSession : KeepsAt p (p.cancelSession sess) key := by
  intro e he
  unfold cancelSession
  rw [Map.lookup_mapValues, he, map_some]
  split
  · exact ⟨_, rfl, fun _ => rfl⟩
  · exact ⟨_, rfl, id⟩

/-- Every pending entry of a session is flagged by the close. -/
lemma isCancelled_cancelSession (hsome : (p.entries.lookup (sess, id)).isSome) :
    (p.cancelSession sess).isCancelled sess id = true := by
  obtain ⟨e, he⟩ := isSome_iff_exists.mp hsome
  unfold isCancelled cancelSession
  rw [Map.lookup_mapValues, he, map_some, if_pos rfl]
  rfl

end PendingOpens

namespace Waiter

variable {allowPrivate : Bool} {w : Waiter allowPrivate}

/-- The same task, further on. -/
structure Continues (w w' : Waiter allowPrivate) : Prop where
  session : w'.session = w.session
  host : w'.host = w.host
  port : w'.port = w.port
  generation : w'.generation = w.generation
  cancelled : w'.cancelled = w.cancelled

lemma continues_nextFollower : w.Continues w.nextFollower := by
  unfold nextFollower
  split <;> exact ⟨rfl, rfl, rfl, rfl, rfl⟩

lemma continues_taken (followers : List Bytes) :
    w.Continues { w with followers := followers }.nextFollower := by
  obtain ⟨hsession, hhost, hport, hgeneration, hcancelled⟩ :=
    ({ w with followers := followers } : Waiter allowPrivate).continues_nextFollower
  exact ⟨hsession, hhost, hport, hgeneration, hcancelled⟩

lemma continues_settle (w : Waiter allowPrivate) (outcome : DeliveryOutcome) :
    w.Continues (w.settle outcome) := by
  unfold settle
  split
  · split <;> exact ⟨rfl, rfl, rfl, rfl, rfl⟩
  · exact w.continues_nextFollower

lemma settle_own (outcome : DeliveryOutcome) (hown : w.own = true) :
    (w.settle outcome).own = true ∧ (w.settle outcome).followers = w.followers := by
  unfold settle
  rw [if_pos hown]
  split <;> exact ⟨hown, rfl⟩

end Waiter

def Reader.closing : Reader → Option UInt32
  | cancelling s => some s
  | removing s => some s
  | _ => none

namespace ServerConn

variable {allowPrivate : Bool} {cond : Prop}

/-- How the tasks of a connection stand with its tables: they are numbered in the order they
start, an open has an entry of its own, and a close flags before it removes. -/
structure Tasked (c : ServerConn allowPrivate) : Prop where
  waiter_lt : ∀ t w, c.waiters.lookup t = some w → t < c.nextTask
  lookup_lt : ∀ t l, c.lookups.lookup t = some l → t < c.nextTask
  pending : ∀ t l, c.lookups.lookup t = some l → (c.opens.entries.lookup (l.session, l.id)).isSome
  distinct : ∀ t t' l l', c.lookups.lookup t = some l → c.lookups.lookup t' = some l' →
    l.session = l'.session → l.id = l'.id → t = t'
  flagged_lookup : ∀ s, c.reader.closing = some s → ∀ t l, c.lookups.lookup t = some l →
    l.session = s → c.opens.isCancelled l.session l.id = true
  flagged_waiter : ∀ s, c.reader = .removing s → ∀ t w, c.waiters.lookup t = some w →
    w.session = s → w.cancelled = true

/-- A flagged lookup with no follower anywhere. -/
structure Stopped (hasher : GateHasher) (gate : DnsGate)
    (w : Waiter allowPrivate) : Prop where
  cancelled : w.cancelled = true
  own : w.own = true
  followers : w.followers = []
  parked : gate.NoFollowers (gateKey hasher w.session w.host w.port) w.generation

/-- The tasks that were there before a session was closed are stopped. -/
structure Closed (hasher : GateHasher) (s : UInt32) (n : Nat)
    (c : ServerConn allowPrivate) : Prop where
  le : n ≤ c.nextTask
  waiter : ∀ t w, t < n → c.waiters.lookup t = some w → w.session = s → Stopped hasher c.gate w
  lookup : ∀ t l, t < n → c.lookups.lookup t = some l → l.session = s →
    c.opens.isCancelled l.session l.id = true

lemma storeDest_eq (c : ServerConn allowPrivate) (nowMs : Nat) (sess : UInt32)
    (dest : Option Named) :
    ∃ sessions, c.storeDest nowMs sess dest = { c with sessions := sessions } ∧
      ∀ s, c.sessions.lookup s = none → sessions.lookup s = none := by
  cases dest with
  | none => exact ⟨_, rfl, fun s h => h⟩
  | some d =>
    refine ⟨_, rfl, fun s h => ?_⟩
    unfold SessTable.sessDestStore
    split
    · exact h
    split
    · exact h
    rename_i e hfound
    split
    · exact h
    have hne : s ≠ sess := by
      rintro rfl
      rw [h] at hfound
      cases hfound
    rw [lookup_insert_ne hne]
    exact h

variable {target : TargetAddr}

section

variable (a : TaskEnv) (sess : UInt32) (payload : Bytes) (addrs : List SocketAddr) (first : Bool)
  (c : ServerConn allowPrivate)

lemma install_eq (sess id : UInt32) (resolved : List SocketAddr) :
    ∃ sessions registry, c.install sess id target resolved =
        { c with sessions := sessions, registry := registry } ∧
      ∀ s, c.sessions.lookup s = none → sessions.lookup s = none := by
  unfold install
  split
  · exact ⟨_, _, rfl, fun s h => h⟩
  rename_i entry hfound
  split
  · exact ⟨_, _, rfl, fun s h => h⟩
  dsimp only
  split
  · exact ⟨_, _, rfl, fun s h => h⟩
  split
  · exact ⟨_, _, rfl, fun s h => h⟩
  refine ⟨_, _, rfl, fun s h => ?_⟩
  have hne : s ≠ sess := by
    rintro rfl
    rw [h] at hfound
    cases hfound
  rw [lookup_insert_ne hne]
  exact h

lemma removeFlow_eq (id : UInt32) :
    ∃ sessions registry reasm, c.removeFlow id =
      { c with sessions := sessions, registry := registry, reasm := reasm } := by
  unfold removeFlow
  split <;> exact ⟨_, _, _, rfl⟩

lemma installUnsolicited_eq (sess : UInt32) (src : SocketAddr) :
    ∃ sessions registry ids, c.installUnsolicited sess src =
      { c with sessions := sessions, registry := registry, ids := ids } := by
  unfold installUnsolicited
  dsimp only
  repeat' split
  all_goals exact ⟨_, _, _, rfl⟩

lemma trySend_eq :
    ∃ sent, (trySend a sess target payload addrs first c).2 = { c with sent := sent } := by
  induction addrs generalizing first c with
  | nil => exact ⟨_, rfl⟩
  | cons addr addrs ih =>
    unfold trySend
    split
    · exact ih false c
    split
    · exact ⟨_, rfl⟩
    · obtain ⟨sent, h⟩ := ih false (c.send sess target addr payload)
      exact ⟨sent, h⟩
    · exact ⟨_, rfl⟩

lemma sendAll_eq (dst : SocketAddr) (payloads : List Bytes) (c : ServerConn allowPrivate) :
    ∃ sent, payloads.foldl (fun c payload => c.send sess target dst payload) c =
      { c with sent := sent } := by
  induction payloads generalizing c with
  | nil => exact ⟨_, rfl⟩
  | cons payload payloads ih =>
    obtain ⟨sent, h⟩ := ih (c.send sess target dst payload)
    exact ⟨sent, h⟩

end

section

variable {hasher : GateHasher} {c c' : ServerConn allowPrivate}
  {s : UInt32} {n : Nat}

/-- A step that leaves the old tasks, their entries and the followers of flagged ones alone. -/
lemma Closed.mono (h : Closed hasher s n c) (hnext : c.nextTask ≤ c'.nextTask)
    (hwaiters : ∀ t, t < n → c'.waiters.lookup t = c.waiters.lookup t)
    (hlookups : ∀ t, t < n → c'.lookups.lookup t = c.lookups.lookup t)
    (hgate : ∀ t w, c.waiters.lookup t = some w → w.cancelled = true →
      c.gate.NoFollowers (gateKey hasher w.session w.host w.port) w.generation →
      c'.gate.NoFollowers (gateKey hasher w.session w.host w.port) w.generation)
    (hopens : ∀ key, PendingOpens.KeepsAt c.opens c'.opens key) : Closed hasher s n c' where
  le := h.le.trans hnext
  waiter := by
    intro t w ht hw hs
    rw [hwaiters t ht] at hw
    obtain ⟨hcancelled, hown, hfollowers, hparked⟩ := h.waiter t w ht hw hs
    exact ⟨hcancelled, hown, hfollowers, hgate t w hw hcancelled hparked⟩
  lookup := by
    intro t l ht hl hs
    rw [hlookups t ht] at hl
    exact (hopens _).isCancelled (h.lookup t l ht hl hs)

/-- A step keeps the tasks in order and, on a condition, those from before a close stopped. -/
structure Upholds (hasher : GateHasher) (cond : Prop)
    (c c' : ServerConn allowPrivate) : Prop where
  tasked : Tasked c → Tasked c'
  closed : cond → Tasked c → ∀ s n, Closed hasher s n c → Closed hasher s n c'

lemma Upholds.refl (c : ServerConn allowPrivate) : Upholds hasher cond c c :=
  ⟨id, fun _ _ _ _ h => h⟩

lemma Upholds.trans {c'' : ServerConn allowPrivate} (h : Upholds hasher cond c c')
    (h' : Upholds hasher cond c' c'') : Upholds hasher cond c c'' :=
  ⟨fun ht => h'.tasked (h.tasked ht),
    fun hcond ht s n hc => h'.closed hcond (h.tasked ht) s n (h.closed hcond ht s n hc)⟩

/-- A step that touches neither tasks nor entries, and does not start a close. -/
lemma upholds_aside (hnext : c'.nextTask = c.nextTask) (hwaiters : c'.waiters = c.waiters)
    (hlookups : c'.lookups = c.lookups) (hopens : c'.opens = c.opens)
    (hreader : c'.reader = c.reader ∨ c'.reader.closing = none)
    (hgate : cond → ∀ t w, c.waiters.lookup t = some w → w.cancelled = true →
      c.gate.NoFollowers (gateKey hasher w.session w.host w.port) w.generation →
      c'.gate.NoFollowers (gateKey hasher w.session w.host w.port) w.generation) :
    Upholds hasher cond c c' where
  tasked := by
    intro h
    refine ⟨?_, ?_, ?_, ?_, ?_, ?_⟩
    · rw [hwaiters, hnext]
      exact h.waiter_lt
    · rw [hlookups, hnext]
      exact h.lookup_lt
    · rw [hlookups, hopens]
      exact h.pending
    · rw [hlookups]
      exact h.distinct
    · intro s hclosing
      rw [hlookups, hopens]
      rcases hreader with hreader | hnone
      · rw [hreader] at hclosing
        exact h.flagged_lookup s hclosing
      · rw [hnone] at hclosing
        cases hclosing
    · intro s hremoving
      rw [hwaiters]
      rcases hreader with hreader | hnone
      · rw [hreader] at hremoving
        exact h.flagged_waiter s hremoving
      · rw [hremoving] at hnone
        cases hnone
  closed := fun hcond _ s n h => h.mono (Nat.le_of_eq hnext.symm) (fun t _ => by rw [hwaiters])
    (fun t _ => by rw [hlookups]) (hgate hcond) fun key => by rw [hopens]; exact .refl c.opens key

/-- The gate is not touched either. -/
lemma upholds_same (hnext : c'.nextTask = c.nextTask) (hwaiters : c'.waiters = c.waiters)
    (hlookups : c'.lookups = c.lookups) (hopens : c'.opens = c.opens) (hgate : c'.gate = c.gate)
    (hreader : c'.reader = c.reader ∨ c'.reader.closing = none) : Upholds hasher cond c c' :=
  upholds_aside hnext hwaiters hlookups hopens hreader fun _ _ _ _ _ h => by rw [hgate]; exact h

lemma tasked_spawnWaiter (h : Tasked c) (hreader : c.reader.closing = none) (sess : UInt32)
    (host : String) (port : UInt16) (generation : UInt32) (payload : Bytes) :
    Tasked (c.spawnWaiter sess host port generation payload) where
  waiter_lt := by
    intro t w hw
    rcases Map.lookup_insert_cases hw with ⟨rfl, -⟩ | ⟨-, hw⟩
    · exact Nat.lt_succ_self _
    · exact Nat.lt_succ_of_lt (h.waiter_lt t w hw)
  lookup_lt := fun t l hl => Nat.lt_succ_of_lt (h.lookup_lt t l hl)
  pending := h.pending
  distinct := h.distinct
  flagged_lookup := by
    intro s hclosing
    change c.reader.closing = some s at hclosing
    rw [hreader] at hclosing
    cases hclosing
  flagged_waiter := by
    intro s hremoving
    change c.reader = .removing s at hremoving
    rw [hremoving] at hreader
    cases hreader

lemma tasked_spawnLookup (h : Tasked c) (hreader : c.reader.closing = none)
    {sess id : UInt32} {target : TargetAddr} {opens : PendingOpens}
    (hstart : c.opens.beginPendingOpen sess id target = (.started, opens)) (host : String)
    (port : UInt16) (payload : Bytes) :
    Tasked (({ c with opens := opens }).spawnLookup sess id host port payload) := by
  obtain ⟨hnone, hsome⟩ := beginPendingOpen_started hstart
  -- The new task is the only one with its key: every other one has an entry already.
  have hcase : ∀ t l, AList.lookup t (AList.insert c.nextTask
      (⟨sess, id, host, port, payload, .resolving⟩ : Lookup allowPrivate) c.lookups) = some l →
      (t = c.nextTask ∧ l.session = sess ∧ l.id = id) ∨
        (c.lookups.lookup t = some l ∧ ¬(l.session = sess ∧ l.id = id)) := by
    intro t l hl
    rcases Map.lookup_insert_cases hl with ⟨rfl, rfl⟩ | ⟨-, hold⟩
    · exact .inl ⟨rfl, rfl, rfl⟩
    refine .inr ⟨hold, ?_⟩
    rintro ⟨rfl, rfl⟩
    have hpending := h.pending t l hold
    rw [hnone] at hpending
    cases hpending
  refine ⟨fun t w hw => Nat.lt_succ_of_lt (h.waiter_lt t w hw), ?_, ?_, ?_, ?_, ?_⟩
  · intro t l hl
    change t < c.nextTask + 1
    rcases hcase t l hl with ⟨ht, -⟩ | ⟨hl, -⟩
    · omega
    · exact Nat.lt_succ_of_lt (h.lookup_lt t l hl)
  · intro t l hl
    rcases hcase t l hl with ⟨-, rfl, rfl⟩ | ⟨hl, -⟩
    · exact hsome
    · exact (keepsAt_beginPendingOpen hstart).isSome (h.pending t l hl)
  · intro t t' l l' hl hl' hsess hid
    rcases hcase t l hl with ⟨ht, hs, hi⟩ | ⟨hl, hother⟩ <;>
      rcases hcase t' l' hl' with ⟨ht', hs', hi'⟩ | ⟨hl', hother'⟩
    · rw [ht, ht']
    · exact absurd ⟨hsess.symm.trans hs, hid.symm.trans hi⟩ hother'
    · exact absurd ⟨hsess.trans hs', hid.trans hi'⟩ hother
    · exact h.distinct t t' l l' hl hl' hsess hid
  · intro s hclosing
    change c.reader.closing = some s at hclosing
    rw [hreader] at hclosing
    cases hclosing
  · intro s hremoving
    change c.reader = .removing s at hremoving
    rw [hremoving] at hreader
    cases hreader

/-- An entry that is only added to. -/
lemma upholds_opens {opens : PendingOpens}
    (hkeeps : ∀ key, PendingOpens.KeepsAt c.opens opens key) :
    Upholds hasher cond c { c with opens := opens } where
  tasked := fun h => {
    waiter_lt := h.waiter_lt
    lookup_lt := h.lookup_lt
    pending := fun t l hl => (hkeeps _).isSome (h.pending t l hl)
    distinct := h.distinct
    flagged_lookup := fun s hclosing t l hl hs =>
      (hkeeps _).isCancelled (h.flagged_lookup s hclosing t l hl hs)
    flagged_waiter := h.flagged_waiter }
  closed := fun _ _ _ _ h => h.mono le_rfl (fun _ _ => rfl) (fun _ _ => rfl)
    (fun _ _ _ _ hno => hno) hkeeps

/-- The reader's acts leave the tasks from before a close alone. -/
lemma Act.upholds {item : Item} {I : UInt32 → Prop} {D : SocketAddr → Prop}
    (hact : Act hasher item I D c c') (hreader : c.reader.closing = none) :
    Upholds hasher cond c c' ∧ c'.reader.closing = none := by
  cases hact with
  | send hdst hallow | create _ _ | pin _ _ =>
    exact ⟨upholds_same rfl rfl rfl rfl rfl (.inl rfl), hreader⟩
  | @store dest nowMs hdest =>
    obtain ⟨sessions, heq, -⟩ := c.storeDest_eq nowMs item.sess (some dest)
    exact ⟨upholds_same rfl rfl rfl rfl rfl (.inl rfl), hreader⟩
  | claim =>
    exact ⟨upholds_aside rfl rfl rfl rfl (.inl rfl) fun _ _ _ _ _ hno => hno.claim _ _, hreader⟩
  | spawn generation htarget =>
    refine ⟨⟨fun h => tasked_spawnWaiter h hreader .., fun _ _ s n h => ?_⟩, hreader⟩
    refine h.mono (Nat.le_succ _) (fun t ht => ?_) (fun _ _ => rfl) (fun _ _ _ _ hno => hno)
      fun key => .refl _ key
    exact lookup_insert_ne (Nat.ne_of_lt (lt_of_lt_of_le ht h.le))
  | await nowMs htarget => exact ⟨upholds_same rfl rfl rfl rfl rfl (.inr rfl), rfl⟩
  | queue id =>
    exact ⟨upholds_opens fun key => keepsAt_queuePendingOpenPayload _ _, hreader⟩
  | begin hid htarget hstart =>
    refine ⟨⟨fun h => tasked_spawnLookup h hreader hstart .., fun _ _ s n h => ?_⟩, hreader⟩
    refine h.mono (Nat.le_succ _) (fun _ _ => rfl) (fun t ht => ?_) (fun _ _ _ _ hno => hno)
      fun key => keepsAt_beginPendingOpen hstart
    exact lookup_insert_ne (Nat.ne_of_lt (lt_of_lt_of_le ht h.le))
  | @install id resolved hid hres =>
    obtain ⟨sessions, registry, heq, -⟩ := c.install_eq item.sess id resolved
    rw [heq]
    exact ⟨upholds_same rfl rfl rfl rfl rfl (.inl rfl), hreader⟩

end

section

variable {hasher : GateHasher} {c : ServerConn allowPrivate}
  {s : UInt32} {n : Nat}

/-- What a waiter leaves of a connection: it moves on itself, takes and drops followers of its
own claim, sends, and touches its session. -/
structure WaiterMoves (hasher : GateHasher) (t : Nat)
    (w : Waiter allowPrivate) (c c' : ServerConn allowPrivate) : Prop where
  eq : ∃ sessions gate sent waiters, c' =
    { c with sessions := sessions, gate := gate, sent := sent, waiters := waiters }
  /-- A stopped waiter stays stopped. -/
  task : c'.waiters = c.waiters.erase t ∨ ∃ w', c'.waiters = c.waiters.insert t w' ∧
    w.Continues w' ∧ (Stopped hasher c.gate w → w'.own = true ∧ w'.followers = [])
  gate : ∀ key generation, c.gate.NoFollowers key generation → c'.gate.NoFollowers key generation
  other : ∀ s, s ≠ w.session → c.sessions.lookup s = none → c'.sessions.lookup s = none
  /-- A stopped waiter does not publish. -/
  stopped : Stopped hasher c.gate w → c.sessions.lookup w.session = none →
    c'.sessions.lookup w.session = none

section

variable {t : Nat} {w : Waiter allowPrivate}

lemma Stopped.stopped_eq {gate : DnsGate} (h : Stopped hasher gate w) : w.stopped = true := by
  rw [Waiter.stopped, h.own, h.cancelled]
  rfl

lemma waiterMoves_at {sessions : SessTable} {gate : DnsGate} {sent : List Sent}
    {w' : Waiter allowPrivate} (hcont : w.Continues w')
    (hgate : ∀ key generation, c.gate.NoFollowers key generation → gate.NoFollowers key generation)
    (hother : ∀ s, s ≠ w.session → c.sessions.lookup s = none → sessions.lookup s = none)
    (hstop : Stopped hasher c.gate w →
      (c.sessions.lookup w.session = none → sessions.lookup w.session = none) ∧
        w'.own = true ∧ w'.followers = []) :
    WaiterMoves hasher t w c
      ({ c with sessions := sessions, gate := gate, sent := sent }.putWaiter t w') where
  eq := ⟨_, _, _, _, rfl⟩
  task := .inr ⟨w', rfl, hcont, fun h => (hstop h).2⟩
  gate := hgate
  other := hother
  stopped := fun h => (hstop h).1

lemma waiterMoves_put {w' : Waiter allowPrivate} (hcont : w.Continues w')
    (hstop : Stopped hasher c.gate w → w'.own = true ∧ w'.followers = []) :
    WaiterMoves hasher t w c (c.putWaiter t w') :=
  waiterMoves_at hcont (fun _ _ hno => hno) (fun _ _ h => h) fun h => ⟨id, hstop h⟩

lemma waiterMoves_settle (outcome : DeliveryOutcome) :
    WaiterMoves hasher t w c (c.putWaiter t (w.settle outcome)) := by
  refine waiterMoves_put (w.continues_settle outcome) fun h => ?_
  obtain ⟨hown, hfollowers⟩ := w.settle_own outcome h.own
  exact ⟨hown, hfollowers.trans h.followers⟩

lemma waiterMoves_stage (stage : WaiterStage allowPrivate) :
    WaiterMoves hasher t w c (c.putWaiter t { w with stage := stage }) :=
  waiterMoves_put ⟨rfl, rfl, rfl, rfl, rfl⟩ fun h => ⟨h.own, h.followers⟩

lemma waiterMoves_storeDest (nowMs : Nat) (dest : Option Named)
    (stage : WaiterStage allowPrivate) :
    WaiterMoves hasher t w c
      ((c.storeDest nowMs w.session dest).putWaiter t { w with stage := stage }) := by
  obtain ⟨sessions, heq, hnone⟩ := c.storeDest_eq nowMs w.session dest
  rw [heq]
  exact waiterMoves_at ⟨rfl, rfl, rfl, rfl, rfl⟩ (fun _ _ hno => hno) (fun s _ => hnone s)
    fun h => ⟨hnone w.session, h.own, h.followers⟩

lemma waiterMoves_sending (a : TaskEnv) (addrs : Allowed allowPrivate)
    (hgo : w.stopped = false) {r : Option SocketAddr × ServerConn allowPrivate}
    (htry : trySend a w.session (.domain w.host w.port) w.payload addrs.all true c = r)
    (dest : Option Named) (outcome : DeliveryOutcome) :
    WaiterMoves hasher t w c
      ((r.2.storeDest a.nowMs w.session dest).putWaiter t (w.settle outcome)) := by
  obtain ⟨sent, hsent⟩ := trySend_eq a w.session w.payload addrs.all true c
  rw [htry] at hsent
  obtain ⟨sessions, heq, hnone⟩ := r.2.storeDest_eq a.nowMs w.session dest
  rw [heq, hsent]
  rw [hsent] at hnone
  refine waiterMoves_at (w.continues_settle outcome) (fun _ _ hno => hno) (fun s _ => hnone s)
    fun h => ?_
  rw [h.stopped_eq] at hgo
  cases hgo

end

lemma runWaiter_moves (a : TaskEnv) (t : Nat) (w : Waiter allowPrivate) :
    WaiterMoves hasher t w c (c.runWaiter hasher a t w) := by
  unfold runWaiter
  split
  · repeat' split
    all_goals first | exact waiterMoves_settle _ | exact waiterMoves_stage _
  · split
    · exact waiterMoves_storeDest _ _ _
    split
    · exact waiterMoves_stage _
    · exact waiterMoves_settle _
  · rename_i addrs hstage
    split
    · exact waiterMoves_storeDest _ _ _
    split
    · exact waiterMoves_settle _
    rename_i hgo
    split
    · exact waiterMoves_at ⟨rfl, rfl, rfl, rfl, rfl⟩ (fun _ _ hno => hno)
        (fun s hs hnone => (lookup_insert_ne hs).trans hnone) fun h => absurd h.stopped_eq hgo
    · exact waiterMoves_settle _
  · rename_i addrs hstage
    split
    · exact waiterMoves_settle _
    rename_i hgo
    rw [Bool.not_eq_true] at hgo
    split <;> rename_i htry
    · exact waiterMoves_sending a addrs hgo htry none _
    · rename_i sent c₁
      split
      · exact waiterMoves_sending a addrs hgo htry _ _
      · exact waiterMoves_sending a addrs hgo htry none _
  · -- The followers are taken only from the waiter's own claim.
    have hcont := w.continues_taken
      (c.gate.takeParked (gateKey hasher w.session w.host w.port) w.generation).1
    refine ⟨⟨_, _, _, _, rfl⟩, .inr ⟨_, ?_, hcont, fun h => ?_⟩,
      fun _ _ hno => hno.takeParked _ _, fun _ _ h => h, fun _ h => h⟩
    · rfl
    · rw [h.parked.takeParked_fst]
      exact ⟨h.own, rfl⟩
  · exact waiterMoves_at ⟨rfl, rfl, rfl, rfl, rfl⟩ (fun _ _ hno => hno.finish _ _ _ _)
      (fun _ _ h => h) fun h => ⟨id, h.own, h.followers⟩
  · exact {
      eq := ⟨_, _, _, _, rfl⟩
      task := .inl rfl
      gate := fun _ _ hno => hno
      other := fun _ _ h => h
      stopped := fun _ hnone => hnone }

/-- What the task of an open leaves of a connection. -/
structure LookupMoves (t : Nat) (l : Lookup allowPrivate) (c c' : ServerConn allowPrivate) :
    Prop where
  eq : ∃ sessions registry sent opens lookups, c' =
    { c with sessions := sessions, registry := registry, sent := sent, opens := opens,
             lookups := lookups }
  task : (c'.lookups = c.lookups.erase t ∧
      ∀ key, key ≠ (l.session, l.id) → PendingOpens.KeepsAt c.opens c'.opens key) ∨
    ((∃ stage, c'.lookups = c.lookups.insert t { l with stage := stage }) ∧
      ∀ key, PendingOpens.KeepsAt c.opens c'.opens key)
  other : ∀ s, s ≠ l.session → c.sessions.lookup s = none → c'.sessions.lookup s = none
  stopped : c.opens.isCancelled l.session l.id = true → c.sessions.lookup l.session = none →
    c'.sessions.lookup l.session = none

variable {stage : LookupStage allowPrivate}

section

variable (a : TaskEnv) (t : Nat) (l : Lookup allowPrivate)

lemma lookupMoves_at {t : Nat} {l : Lookup allowPrivate} {sessions : SessTable}
    {registry : Map UInt32 FlowBinding} {sent : List Sent} {opens : PendingOpens}
    (hkeeps : ∀ key, PendingOpens.KeepsAt c.opens opens key)
    (hnone : ∀ s, c.sessions.lookup s = none → sessions.lookup s = none) :
    LookupMoves t l c ({ c with sessions := sessions, registry := registry, sent := sent,
                                opens := opens }.putLookup t l stage) where
  eq := ⟨_, _, _, _, _, rfl⟩
  task := .inr ⟨⟨stage, rfl⟩, hkeeps⟩
  other := fun s _ => hnone s
  stopped := fun _ => hnone _

lemma lookupMoves_put :
    LookupMoves t l c (c.putLookup t l stage) := lookupMoves_at (.refl _) fun _ h => h

lemma lookupMoves_storeDest (nowMs : Nat) (dest : Option Named) :
    LookupMoves t l c ((c.storeDest nowMs l.session dest).putLookup t l stage) := by
  obtain ⟨sessions, heq, hnone⟩ := c.storeDest_eq nowMs l.session dest
  rw [heq]
  exact lookupMoves_at (.refl _) hnone

lemma runLookup_moves : LookupMoves t l c (c.runLookup a t l) := by
  unfold runLookup
  dsimp only
  split
  · repeat' split
    all_goals exact lookupMoves_put ..
  · split
    · exact lookupMoves_storeDest ..
    · split <;> exact lookupMoves_put ..
  · split
    · exact lookupMoves_storeDest ..
    split
    · exact lookupMoves_put ..
    rename_i hgo
    split
    · exact {
        eq := ⟨_, _, _, _, _, rfl⟩
        task := .inr ⟨⟨_, rfl⟩, fun key => .refl _ key⟩
        other := by
          intro s hs hnone
          change AList.lookup s (AList.insert l.session _ c.sessions) = none
          rw [lookup_insert_ne hs]
          exact hnone
        stopped := fun h => absurd h hgo }
    · exact lookupMoves_put ..
  · split
    · exact lookupMoves_put ..
    exact lookupMoves_at (.refl _) fun _ h => h
  · rename_i addrs hstage
    obtain ⟨sent, hsent⟩ := sendAll_eq l.session addrs.first
      (c.opens.takePendingPayloads l.session l.id).1
      { c with opens := (c.opens.takePendingPayloads l.session l.id).2 }
    rw [hsent]
    split <;> exact lookupMoves_at (fun key => keepsAt_takePendingPayloads) fun _ h => h
  · rename_i addrs hstage
    obtain ⟨sessions, registry, heq, hnone⟩ := c.install_eq l.session l.id addrs.all
    rw [heq]
    exact lookupMoves_at (.refl _) hnone
  · exact {
      eq := ⟨_, _, _, _, _, rfl⟩
      task := .inl ⟨rfl, fun key hkey => keepsAt_dropPending hkey⟩
      other := fun _ _ h => h
      stopped := fun _ h => h }

end

variable {c' : ServerConn allowPrivate} {t : Nat}

variable {w : Waiter allowPrivate} {l : Lookup allowPrivate}

/-- What stands at a number after a waiter's stage. -/
lemma WaiterMoves.lookup (h : WaiterMoves hasher t w c c') {t' : Nat} {w₁ : Waiter allowPrivate}
    (hw₁ : c'.waiters.lookup t' = some w₁) :
    (t' = t ∧ w.Continues w₁ ∧ (Stopped hasher c.gate w → w₁.own = true ∧ w₁.followers = [])) ∨
      (t' ≠ t ∧ c.waiters.lookup t' = some w₁) := by
  rcases h.task with herase | ⟨w', hinsert, hmoves⟩
  · rw [herase] at hw₁
    exact .inr (Map.lookup_erase_iff.mp hw₁)
  · rw [hinsert] at hw₁
    rcases Map.lookup_insert_cases hw₁ with ⟨rfl, rfl⟩ | hold
    · exact .inl ⟨rfl, hmoves⟩
    · exact .inr hold

lemma WaiterMoves.upholds (h : WaiterMoves hasher t w c c') (hw : c.waiters.lookup t = some w) :
    Upholds hasher cond c c' where
  tasked := by
    intro htasked
    obtain ⟨sessions, gate, sent, waiters, rfl⟩ := h.eq
    refine ⟨?_, htasked.lookup_lt, htasked.pending, htasked.distinct, htasked.flagged_lookup, ?_⟩
    · intro t' w₁ hw₁
      rcases h.lookup hw₁ with ⟨rfl, -⟩ | ⟨-, hold⟩
      · exact htasked.waiter_lt t' w hw
      · exact htasked.waiter_lt t' w₁ hold
    · intro s hremoving t' w₁ hw₁ hs
      rcases h.lookup hw₁ with ⟨rfl, hcont, -⟩ | ⟨-, hold⟩
      · rw [hcont.cancelled]
        exact htasked.flagged_waiter s hremoving t' w hw (hcont.session.symm.trans hs)
      · exact htasked.flagged_waiter s hremoving t' w₁ hold hs
  closed := by
    intro _ _ s n hclosed
    refine ⟨?_, ?_, ?_⟩
    · obtain ⟨sessions, gate, sent, waiters, rfl⟩ := h.eq
      exact hclosed.le
    · intro t' w₁ ht' hw₁ hs
      rcases h.lookup hw₁ with ⟨rfl, hcont, hstay⟩ | ⟨-, hold⟩
      · have hstop := hclosed.waiter t' w ht' hw (hcont.session.symm.trans hs)
        obtain ⟨hown, hfollowers⟩ := hstay hstop
        refine ⟨hcont.cancelled.trans hstop.cancelled, hown, hfollowers, ?_⟩
        rw [hcont.session, hcont.host, hcont.port, hcont.generation]
        exact h.gate _ _ hstop.parked
      · obtain ⟨hcancelled, hown, hfollowers, hparked⟩ := hclosed.waiter t' w₁ ht' hold hs
        exact ⟨hcancelled, hown, hfollowers, h.gate _ _ hparked⟩
    · obtain ⟨sessions, gate, sent, waiters, rfl⟩ := h.eq
      exact hclosed.lookup

/-- What stands at a number after a stage of an open. -/
lemma LookupMoves.lookup (h : LookupMoves t l c c') {t' : Nat} {l₁ : Lookup allowPrivate}
    (hl₁ : c'.lookups.lookup t' = some l₁) :
    (t' = t ∧ l₁.session = l.session ∧ l₁.id = l.id ∧
      PendingOpens.KeepsAt c.opens c'.opens (l.session, l.id)) ∨
    (t' ≠ t ∧ c.lookups.lookup t' = some l₁) := by
  rcases h.task with ⟨herase, -⟩ | ⟨⟨stage, hinsert⟩, hkeeps⟩
  · rw [herase] at hl₁
    exact .inr (Map.lookup_erase_iff.mp hl₁)
  · rw [hinsert] at hl₁
    rcases Map.lookup_insert_cases hl₁ with ⟨rfl, rfl⟩ | hold
    · exact .inl ⟨rfl, rfl, rfl, hkeeps _⟩
    · exact .inr hold

variable (h : LookupMoves t l c c') (hl : c.lookups.lookup t = some l) (htasked : Tasked c)
include h hl htasked

/-- The entry of every open that is still there is kept: no other open shares it. -/
lemma LookupMoves.keeps {t' : Nat} {l₁ : Lookup allowPrivate}
    (hl₁ : c.lookups.lookup t' = some l₁) (hne : t' ≠ t) :
    PendingOpens.KeepsAt c.opens c'.opens (l₁.session, l₁.id) := by
  rcases h.task with ⟨-, hkeeps⟩ | ⟨-, hkeeps⟩
  · refine hkeeps _ fun hkey => hne ?_
    obtain ⟨hsess, hid⟩ := Prod.mk.inj hkey
    exact htasked.distinct t' t l₁ l hl₁ hl hsess hid
  · exact hkeeps _

lemma LookupMoves.tasked : Tasked c' := by
  obtain ⟨sessions, registry, sent, opens, lookups, rfl⟩ := h.eq
  refine ⟨htasked.waiter_lt, ?_, ?_, ?_, ?_, htasked.flagged_waiter⟩
  · intro t' l₁ hl₁
    rcases h.lookup hl₁ with ⟨rfl, -⟩ | ⟨-, hold⟩
    · exact htasked.lookup_lt t' l hl
    · exact htasked.lookup_lt t' l₁ hold
  · intro t' l₁ hl₁
    rcases h.lookup hl₁ with ⟨rfl, hsess, hid, hkeeps⟩ | ⟨hne, hold⟩
    · rw [hsess, hid]
      exact hkeeps.isSome (htasked.pending t' l hl)
    · exact (h.keeps hl htasked hold hne).isSome (htasked.pending t' l₁ hold)
  · intro t₁ t₂ l₁ l₂ hl₁ hl₂ hsess hid
    rcases h.lookup hl₁ with ⟨rfl, hs₁, hi₁, -⟩ | ⟨hne₁, hold₁⟩ <;>
      rcases h.lookup hl₂ with ⟨rfl, hs₂, hi₂, -⟩ | ⟨hne₂, hold₂⟩
    · rfl
    · exact htasked.distinct t₁ t₂ l l₂ hl hold₂ (hs₁.symm.trans hsess) (hi₁.symm.trans hid)
    · exact htasked.distinct t₁ t₂ l₁ l hold₁ hl (hsess.trans hs₂) (hid.trans hi₂)
    · exact htasked.distinct t₁ t₂ l₁ l₂ hold₁ hold₂ hsess hid
  · intro s hclosing t' l₁ hl₁ hs
    rcases h.lookup hl₁ with ⟨rfl, hsess, hid, hkeeps⟩ | ⟨hne, hold⟩
    · rw [hsess, hid]
      exact hkeeps.isCancelled (htasked.flagged_lookup s hclosing t' l hl (hsess.symm.trans hs))
    · exact (h.keeps hl htasked hold hne).isCancelled
        (htasked.flagged_lookup s hclosing t' l₁ hold hs)

lemma LookupMoves.closed (hclosed : Closed hasher s n c) : Closed hasher s n c' := by
  obtain ⟨sessions, registry, sent, opens, lookups, rfl⟩ := h.eq
  refine ⟨hclosed.le, hclosed.waiter, ?_⟩
  intro t' l₁ ht' hl₁ hs
  rcases h.lookup hl₁ with ⟨rfl, hsess, hid, hkeeps⟩ | ⟨hne, hold⟩
  · rw [hsess, hid]
    exact hkeeps.isCancelled (hclosed.lookup t' l ht' hl (hsess.symm.trans hs))
  · exact (h.keeps hl htasked hold hne).isCancelled (hclosed.lookup t' l₁ ht' hold hs)

omit htasked in
lemma LookupMoves.upholds : Upholds hasher cond c c' :=
  ⟨h.tasked hl, fun _ htasked _ _ hclosed => h.closed hl htasked hclosed⟩

end

section

variable (hasher : GateHasher) (z : Sizes)

/-- A task from before the `n`-th publishes the session in this step. -/
def publishes (s : UInt32) (n : Nat) (c : ServerConn allowPrivate) (ev : Event) : Bool :=
  match ev with
  | .waiter t _ =>
    t < n && (c.sessions.lookup s).isNone && ((next hasher z c ev).sessions.lookup s).isSome
  | .lookup t _ =>
    t < n && (c.sessions.lookup s).isNone && ((next hasher z c ev).sessions.lookup s).isSome
  | _ => false

/-- No follower waits behind a lookup of a closed session: none has come in when the session is
removed, and none is parked behind a flagged lookup. -/
def Unparked (c : ServerConn allowPrivate) : Event → Prop
  | .closeStep =>
    match c.reader with
    | .removing s => ∀ t w, c.waiters.lookup t = some w → w.session = s →
        w.own = true ∧ w.followers = [] ∧
          c.gate.NoFollowers (gateKey hasher w.session w.host w.port) w.generation
    | _ => True
  | .park =>
    match c.reader with
    | .parking key nowMs _ => ∀ e ∈ c.gate.live.find? (GateEntry.isOpen key nowMs),
        ∀ t w, c.waiters.lookup t = some w → w.cancelled = true →
          e.isFor (gateKey hasher w.session w.host w.port) w.generation = false
    | _ => True
  | _ => True

instance (c : ServerConn allowPrivate) (ev : Event) : Decidable (Unparked hasher c ev) := by
  unfold Unparked
  split
  · split <;> infer_instance
  · split <;> infer_instance
  · infer_instance

variable {hasher z} {c : ServerConn allowPrivate} {s : UInt32} {n : Nat}

lemma lookup_cancelWaiters {t : Nat} {w : Waiter allowPrivate}
    (h : (c.cancelWaiters s).waiters.lookup t = some w) :
    ∃ w₀, c.waiters.lookup t = some w₀ ∧
      w = if w₀.session = s then { w₀ with cancelled := true } else w₀ := by
  unfold cancelWaiters at h
  rw [Map.lookup_mapValues] at h
  obtain ⟨w₀, hw₀, heq⟩ := map_eq_some_iff.mp h
  exact ⟨w₀, hw₀, heq.symm⟩

lemma tasked_new (wire : Wire) : Tasked (new allowPrivate wire) :=
  ⟨nofun, nofun, nofun, nofun, nofun, nofun⟩

/-- The first step of a close flags the opens of the session. -/
lemma upholds_sessClose (sess : UInt32) : Upholds hasher cond c
    { c with opens := c.opens.cancelSession sess, reader := .cancelling sess } where
  tasked := fun h => {
    waiter_lt := h.waiter_lt
    lookup_lt := h.lookup_lt
    pending := fun t l hl => keepsAt_cancelSession.isSome (h.pending t l hl)
    distinct := h.distinct
    flagged_lookup := by
      intro s hclosing t l hl hs
      cases hclosing
      subst hs
      exact isCancelled_cancelSession (h.pending t l hl)
    flagged_waiter := nofun }
  closed := fun _ _ _ _ h => h.mono le_rfl (fun _ _ => rfl) (fun _ _ => rfl)
    (fun _ _ _ _ hno => hno) fun key => keepsAt_cancelSession

/-- The second step flags its waiters. -/
lemma upholds_cancelWaiters {sess : UInt32} (hreader : c.reader = .cancelling sess)
    (reasm : Reassembler) :
    Upholds hasher cond c
      { c.cancelWaiters sess with reasm := reasm, reader := .removing sess } where
  tasked := fun h => {
    waiter_lt := by
      intro t w hw
      obtain ⟨w₀, hw₀, -⟩ := lookup_cancelWaiters hw
      exact h.waiter_lt t w₀ hw₀
    lookup_lt := h.lookup_lt
    pending := h.pending
    distinct := h.distinct
    flagged_lookup := by
      rintro s ⟨⟩
      exact h.flagged_lookup sess (by rw [hreader]; rfl)
    flagged_waiter := by
      intro s hremoving t w hw hs
      cases hremoving
      obtain ⟨w₀, hw₀, rfl⟩ := lookup_cancelWaiters hw
      split
      · rfl
      rename_i hne
      rw [if_neg hne] at hs
      exact absurd hs hne }
  closed := by
    intro _ _ s n h
    refine ⟨h.le, ?_, h.lookup⟩
    intro t w ht hw hs
    obtain ⟨w₀, hw₀, rfl⟩ := lookup_cancelWaiters hw
    split
    · rename_i heq
      rw [if_pos heq] at hs
      obtain ⟨-, hown, hfollowers, hparked⟩ := h.waiter t w₀ ht hw₀ hs
      exact ⟨rfl, hown, hfollowers, hparked⟩
    · rename_i hne
      rw [if_neg hne] at hs
      exact h.waiter t w₀ ht hw₀ hs

/-- Every step keeps the tasks in order, and those from before a close stopped. -/
lemma upholds_next (ev : Event) : Upholds hasher (Unparked hasher c ev) c (c.next hasher z ev) := by
  unfold ServerConn.next
  cases ev with
  | datagram d env =>
    dsimp only
    split
    · rename_i hidle
      have hact : ∀ item (c₁ c₂ : ServerConn allowPrivate),
          (Upholds hasher (Unparked hasher c (.datagram d env)) c c₁ ∧ c₁.reader.closing = none) →
          Act hasher item (fun _ => True) (fun _ => True) c₁ c₂ →
          Upholds hasher (Unparked hasher c (.datagram d env)) c c₂ ∧ c₂.reader.closing = none :=
        fun item c₁ c₂ h hact => (hact.upholds h.2).imp_left h.1.trans
      exact (Kept.ingress hact
        (fun c₁ reasm h => ⟨h.1.trans (upholds_same rfl rfl rfl rfl rfl (.inl rfl)), h.2⟩)
        ⟨.refl c, by rw [hidle]; rfl⟩ d).1
    · exact .refl c
  | park =>
    dsimp only
    split
    · -- A follower is parked behind another lookup than the flagged ones.
      rename_i hreader
      refine upholds_aside rfl rfl rfl rfl (.inr rfl) fun hcond t w hw hcancelled hno => ?_
      unfold Unparked at hcond
      rw [hreader] at hcond
      exact hno.park (fun e he => hcond e he t w hw hcancelled) _
    · exact .refl c
  | sessClose sess =>
    dsimp only
    split
    · exact upholds_sessClose sess
    · exact .refl c
  | closeStep =>
    dsimp only
    split
    · rename_i sess hreader
      exact upholds_cancelWaiters hreader _
    · exact upholds_same rfl rfl rfl rfl rfl (.inr rfl)
    · exact .refl c
  | flowClose id =>
    dsimp only
    split
    · obtain ⟨sessions, registry, reasm, heq⟩ := c.removeFlow_eq id
      rw [heq]
      exact upholds_same rfl rfl rfl rfl rfl (.inl rfl)
    · exact .refl c
  | unsolicited sess src =>
    obtain ⟨sessions, registry, ids, heq⟩ := c.installUnsolicited_eq sess src
    dsimp only
    rw [heq]
    exact upholds_same rfl rfl rfl rfl rfl (.inl rfl)
  | reap sess => exact upholds_same rfl rfl rfl rfl rfl (.inl rfl)
  | waiter t a =>
    dsimp only
    split
    · rename_i w hw
      exact (runWaiter_moves a t w).upholds hw
    · exact .refl c
  | lookup t a =>
    dsimp only
    split
    · rename_i l hl
      exact (runLookup_moves a t l).upholds hl
    · exact .refl c

lemma closed_of_removing (htasked : Tasked c) (hreader : c.reader = .removing s)
    (hcond : Unparked hasher c .closeStep) :
    Closed hasher s c.nextTask (c.next hasher z .closeStep) := by
  unfold next
  rw [hreader]
  unfold Unparked at hcond
  rw [hreader] at hcond
  refine ⟨le_rfl, ?_, ?_⟩
  · intro t w _ hw hs
    obtain ⟨hown, hfollowers, hparked⟩ := hcond t w hw hs
    exact ⟨htasked.flagged_waiter s hreader t w hw hs, hown, hfollowers, hparked⟩
  · intro t l _ hl hs
    exact htasked.flagged_lookup s (by rw [hreader]; rfl) t l hl hs

lemma Closed.not_publishes (h : Closed hasher s n c) (ev : Event) :
    publishes hasher z s n c ev = false := by
  have hnot (t : Nat) {c' : ServerConn allowPrivate}
      (hkeep : t < n → c.sessions.lookup s = none → c'.sessions.lookup s = none) :
      (t < n && (c.sessions.lookup s).isNone && (c'.sessions.lookup s).isSome) = false := by
    by_cases hlive : t < n ∧ c.sessions.lookup s = none
    · simp [hkeep hlive.1 hlive.2]
    · simp_all
  cases ev with
  | waiter t a =>
    refine hnot t fun ht hnone => ?_
    unfold ServerConn.next
    dsimp only
    split
    · rename_i w hw
      have hmoves : WaiterMoves hasher t w c (c.runWaiter hasher a t w) := runWaiter_moves a t w
      by_cases hs : w.session = s
      · have hkeep := hmoves.stopped (h.waiter t w ht hw hs)
        rw [hs] at hkeep
        exact hkeep hnone
      · exact hmoves.other s (Ne.symm hs) hnone
    · exact hnone
  | lookup t a =>
    refine hnot t fun ht hnone => ?_
    unfold ServerConn.next
    dsimp only
    split
    · rename_i l hl
      have hmoves : LookupMoves t l c (c.runLookup a t l) := runLookup_moves a t l
      by_cases hs : l.session = s
      · have hkeep := hmoves.stopped (h.lookup t l ht hl hs)
        rw [hs] at hkeep
        exact hkeep hnone
      · exact hmoves.other s (Ne.symm hs) hnone
    · exact hnone
  | _ => rfl

end

/-- Once a session has been removed by its close, no lookup from before the close publishes it
again, as long as no follower waits behind a lookup of a closed session. -/
theorem closed_session_stays_closed (hasher : UInt32 → UInt16 → Bytes → UInt64) (z : Sizes)
    (wire : Wire) (before later : List Event) (s : UInt32)
    (hclose : (after (next hasher z) (new allowPrivate wire) before).reader = .removing s)
    (hcond : Along (next hasher z) (Unparked hasher)
      (after (next hasher z) (new allowPrivate wire) before) (.closeStep :: later)) :
    Along (next hasher z)
      (fun c ev => publishes hasher z s
        (after (next hasher z) (new allowPrivate wire) before).nextTask c ev = false)
      (next hasher z (after (next hasher z) (new allowPrivate wire) before) .closeStep) later := by
  obtain ⟨c, hc⟩ : ∃ c, after (next hasher z) (new allowPrivate wire) before = c := ⟨_, rfl⟩
  have htasked : Tasked c := by
    rw [← hc]
    exact after_of_kept (fun c₁ ev => (upholds_next ev).tasked) (tasked_new wire) before
  rw [hc] at hclose hcond ⊢
  obtain ⟨hremove, hlater⟩ := hcond
  have hinv : Tasked (c.next hasher z .closeStep) ∧
      Closed hasher s c.nextTask (c.next hasher z .closeStep) :=
    ⟨(upholds_next _).tasked htasked, closed_of_removing htasked hclose hremove⟩
  have hstep : ∀ (c₁ : ServerConn allowPrivate) ev,
      (Tasked c₁ ∧ Closed hasher s c.nextTask c₁) → Unparked hasher c₁ ev →
      publishes hasher z s c.nextTask c₁ ev = false ∧
        (Tasked (c₁.next hasher z ev) ∧ Closed hasher s c.nextTask (c₁.next hasher z ev)) :=
    fun c₁ ev ⟨ht, hclosed⟩ hunparked =>
      ⟨hclosed.not_publishes ev, (upholds_next ev).tasked ht,
        (upholds_next ev).closed hunparked ht _ _ hclosed⟩
  exact Along.of_invariant hstep hinv hlater

/-- Nothing is known about any name, and every send goes out. -/
def unknownNames : Env where
  nowMs := 0
  memo := fun _ _ => (.unknown, 0)
  unreachable := fun _ => false
  fastLive := false
  cachedSock := false
  grant := true
  permit := true
  verdict := fun _ => .sent

/-- The resolver answers with one global address. -/
def oneAnswer : TaskEnv where
  toEnv := unknownNames
  answer := .ok [.v4 (.new 8 8 8 8) 80]
  filteredTtl := 0
  entryLife := 1000
  readerAlive := true

def toName (payload : Bytes) : Event :=
  .datagram ((Wire.rev2.encodeDataInline 7 (.domain "a" 80) false payload 1200).getD [])
    fun _ => unknownNames

/-- One key per session. -/
def bySession (sess : UInt32) (_ : UInt16) (_ : Bytes) : UInt64 := sess.toUInt64

/-- A session with one lookup in flight is closed. -/
theorem closed_session_stays_closed_alone :
    (after (next bySession ⟨8, 8, 8⟩) (new false .rev2)
        [toName [1], .sessClose 7, .closeStep]).reader = .removing 7 ∧
      Along (next bySession ⟨8, 8, 8⟩)
        (fun c ev => publishes bySession ⟨8, 8, 8⟩ 7
          (after (next bySession ⟨8, 8, 8⟩) (new false .rev2)
            [toName [1], .sessClose 7, .closeStep]).nextTask c ev = false)
        (next bySession ⟨8, 8, 8⟩ (after (next bySession ⟨8, 8, 8⟩) (new false .rev2)
          [toName [1], .sessClose 7, .closeStep]) .closeStep)
        [.waiter 0 oneAnswer, .waiter 0 oneAnswer, .waiter 0 oneAnswer] :=
  ⟨by decide +kernel,
    closed_session_stays_closed _ _ _ _ _ _ (by decide +kernel) (by decide +kernel)⟩

/-- A second payload waits behind the lookup when the session is closed. The lookup drops its own
payload, takes the second one, and publishes the session again. -/
theorem follower_reopens_session :
    (after (next bySession ⟨8, 8, 8⟩) (new false .rev2)
        [toName [1], toName [2], .park, .sessClose 7, .closeStep]).reader = .removing 7 ∧
      ¬ Along (next bySession ⟨8, 8, 8⟩)
        (fun c ev => publishes bySession ⟨8, 8, 8⟩ 7
          (after (next bySession ⟨8, 8, 8⟩) (new false .rev2)
            [toName [1], toName [2], .park, .sessClose 7, .closeStep]).nextTask c ev = false)
        (next bySession ⟨8, 8, 8⟩ (after (next bySession ⟨8, 8, 8⟩) (new false .rev2)
          [toName [1], toName [2], .park, .sessClose 7, .closeStep]) .closeStep)
        [.waiter 0 oneAnswer, .waiter 0 oneAnswer, .waiter 0 oneAnswer, .waiter 0 oneAnswer,
          .waiter 0 oneAnswer] := by
  decide +kernel

end ServerConn

end MyQuic2
