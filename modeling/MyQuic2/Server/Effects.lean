import MyQuic2.Server.Tasks

/-!
# What the reader does with a payload

Whatever way a payload takes through the reader, it amounts to a few elementary
acts on the connection: a send, a remembered destination, a claim, a task, a
queued or parked payload, an install. What a payload can do to a connection is
read off the acts.
-/

namespace MyQuic2

open Bool Option

/-- A payload with the session and the target it is relayed for. -/
structure Item where
  sess : UInt32
  target : TargetAddr
  payload : Bytes

namespace ServerConn

variable {allowPrivate : Bool}

/-- A destination may be remembered for an item: it is for the item's name, and one of `D`. -/
def Remembers (item : Item) (D : SocketAddr → Prop) (dest : Named) : Prop :=
  item.target = .domain dest.host dest.port ∧ D dest.addr

/-- The elementary acts of the reader on behalf of an item. Ids of new flows come out of `I`,
addresses out of `D`. -/
inductive Act (hasher : GateHasher) (item : Item) (I : UInt32 → Prop)
    (D : SocketAddr → Prop) (c : ServerConn allowPrivate) : ServerConn allowPrivate → Prop where
  /-- Send the payload to an address that the policy allows. -/
  | send {dst : SocketAddr} (hdst : D dst) (hallow : fastAllow allowPrivate dst = true) :
      Act hasher item I D c (c.send item.sess item.target dst item.payload)
  | store {dest : Named} (nowMs : Nat) (hdest : Remembers item D dest) :
      Act hasher item I D c (c.storeDest nowMs item.sess (some dest))
  | create {dest : Option Named} (nowMs : Nat) (hdest : ∀ d, dest = some d → Remembers item D d) :
      Act hasher item I D c
        { c with sessions := c.sessions.insert item.sess (freshEntry nowMs dest) }
  | pin {p : ConnPin} (hsess : p.sess = item.sess)
      (hdest : item.target = .domain p.host p.port ∧ D p.addr) :
      Act hasher item I D c { c with pins := c.pins.pinStore p }
  | claim {key : UInt64} {nowMs : Nat} :
      Act hasher item I D c { c with gate := (c.gate.claim key nowMs).2 }
  | spawn {host : String} {port : UInt16} (generation : UInt32)
      (htarget : item.target = .domain host port) :
      Act hasher item I D c (c.spawnWaiter item.sess host port generation item.payload)
  | await {host : String} {port : UInt16} (nowMs : Nat)
      (htarget : item.target = .domain host port) :
      Act hasher item I D c
        { c with reader := .parking (gateKey hasher item.sess host port) nowMs item.payload }
  /-- Queue the payload behind the lookup of its flow. -/
  | queue (id : UInt32) :
      Act hasher item I D c
        { c with opens := (c.opens.queuePendingOpenPayload item.sess id item.target
            item.payload).2 }
  | begin {host : String} {port : UInt16} {id : UInt32} {opens : PendingOpens}
      (hid : I id) (htarget : item.target = .domain host port)
      (hstart : c.opens.beginPendingOpen item.sess id item.target = (.started, opens)) :
      Act hasher item I D c
        (({ c with opens := opens }).spawnLookup item.sess id host port item.payload)
  | install (id : UInt32) {resolved : List SocketAddr} (hid : I id)
      (hres : ∀ a ∈ resolved, D a) :
      Act hasher item I D c (c.install item.sess id item.target resolved)

/-- Any number of acts for one item. -/
abbrev Acts (hasher : GateHasher) (item : Item) (I : UInt32 → Prop)
    (D : SocketAddr → Prop) : ServerConn allowPrivate → ServerConn allowPrivate → Prop :=
  Relation.ReflTransGen (Act hasher item I D)

/-- The addresses that the worker and the session know for an item are all in `D`. -/
structure Offers (k : Knowledge) (ss : SessTable) (item : Item) (D : SocketAddr → Prop) :
    Prop where
  ip : ∀ a, item.target = .ip a → D a
  memo : ∀ host port, item.target = .domain host port →
    ∀ a life, k.memo host port = (.addr a, life) → D a
  dest : ∀ host port, item.target = .domain host port →
    ∀ a life, ss.sessDestLookupTtl k.nowMs item.sess host port = some (a, life) → D a

/-- The addresses that are pinned for an item are all in `D`. -/
def PinsOffer (pins : PinCache) (item : Item) (D : SocketAddr → Prop) : Prop :=
  ∀ slot ∈ pins, ∀ p, slot.pin = some p → p.sess = item.sess →
    item.target = .domain p.host p.port → D p.addr

section

variable {hasher : GateHasher} {e : Env} {item : Item}
  {I : UInt32 → Prop} {D : SocketAddr → Prop} {c c' : ServerConn allowPrivate}

lemma acts_getOrCreateSess {dest : Option Named} {ok : Bool}
    (hdest : ∀ d, dest = some d → Remembers item D d)
    (h : c.getOrCreateSess e item.sess dest = (ok, c')) : Acts hasher item I D c c' := by
  unfold getOrCreateSess at h
  split at h
  · obtain ⟨-, rfl⟩ := Prod.mk.inj h
    cases dest with
    | none => exact .refl
    | some d => exact .single (.store e.nowMs (hdest d rfl))
  split at h
  · obtain ⟨-, rfl⟩ := Prod.mk.inj h
    exact .single (.create e.nowMs hdest)
  · obtain ⟨-, rfl⟩ := Prod.mk.inj h
    exact .refl

variable {host : String} {port : UInt16} {dst : SocketAddr} {k : Knowledge} {life : Nat}
  {staged : Bool} {used : Option (SocketAddr × Nat)}

lemma acts_claimLookup (htarget : item.target = .domain host port) :
    Acts hasher item I D c (c.claimLookup hasher e item.sess host port item.payload) := by
  unfold claimLookup
  split
  · exact .refl
  have hclaim : Act hasher item I D c { c with gate :=
      (c.gate.claim (gateKey hasher item.sess host port) e.nowMs).2 } := .claim
  dsimp only
  split <;> rename_i hgate <;> rw [hgate] at hclaim
  · exact (Relation.ReflTransGen.single hclaim).tail (.spawn _ htarget)
  · exact (Relation.ReflTransGen.single hclaim).tail (.await e.nowMs htarget)
  · exact .single hclaim

section

variable (hoffers : Offers k c.sessions item D) (htarget : item.target = .domain host port)
include hoffers htarget

lemma resolveFromSession_spec
    (h : resolveFromSession k allowPrivate c.sessions item.sess host port = .addr dst life) :
    D dst ∧ fastAllow allowPrivate dst = true := by
  unfold resolveFromSession at h
  split at h
  · rename_i dst' life' hfound
    split at h
    · rename_i husable
      cases h
      rw [usable, and_eq_true] at husable
      exact ⟨hoffers.dest host port htarget _ _ hfound, husable.1⟩
    · cases h
  · cases h

/-- An address that is found without a lookup is allowed and known. -/
lemma resolveForwardTarget_spec
    (h : resolveForwardTarget k allowPrivate c.sessions item.sess host port = .addr dst life) :
    D dst ∧ fastAllow allowPrivate dst = true := by
  unfold resolveForwardTarget at h
  split at h
  · cases h
  · rename_i dst' life' hmemo
    split at h
    · rename_i husable
      cases h
      rw [usable, and_eq_true] at husable
      exact ⟨hoffers.memo host port htarget _ _ hmemo, husable.1⟩
    · exact resolveFromSession_spec hoffers htarget h
  · exact resolveFromSession_spec hoffers htarget h

end

/-- Relaying to an address creates the session at most, and sends. -/
lemma acts_forwardServerDgram_ip (hdst : D dst)
    (h : c.forwardServerDgram hasher e item.sess (.ip dst) item.payload item.target staged =
      (used, c')) : Acts hasher item I D c c' ∧ ∀ dst life, used = some (dst, life) → D dst := by
  unfold forwardServerDgram at h
  dsimp only at h
  split at h
  · obtain ⟨rfl, rfl⟩ := Prod.mk.inj h
    exact ⟨.refl, nofun⟩
  rename_i hallow
  rw [not_eq_true', not_eq_false] at hallow
  have hnamed : ∀ d, (none : Option Named) = some d → Remembers item D d := nofun
  split at h <;> rename_i hsess
  · obtain ⟨rfl, rfl⟩ := Prod.mk.inj h
    exact ⟨acts_getOrCreateSess hnamed hsess, nofun⟩
  · obtain ⟨rfl, rfl⟩ := Prod.mk.inj h
    refine ⟨(acts_getOrCreateSess hnamed hsess).tail (.send hdst hallow), ?_⟩
    rintro dst' life' ⟨⟩
    exact hdst

lemma remembers_named (htarget : item.target = .domain host port) (hdst : D dst) (life : Nat) :
    ∀ d, some (⟨host, port, dst, life⟩ : Named) = some d → Remembers item D d := by
  rintro _ ⟨⟩
  exact ⟨htarget, hdst⟩

/-- Relaying to a name sends to a known address, or leaves it to a lookup. -/
lemma acts_forwardServerDgram_domain (hoffers : Offers e.toKnowledge c.sessions item D)
    (htarget : item.target = .domain host port)
    (h : c.forwardServerDgram hasher e item.sess (.domain host port) item.payload item.target
      staged = (used, c')) :
    Acts hasher item I D c c' ∧ ∀ dst life, used = some (dst, life) → D dst := by
  unfold forwardServerDgram at h
  dsimp only at h
  split at h
  · obtain ⟨rfl, rfl⟩ := Prod.mk.inj h
    exact ⟨.refl, nofun⟩
  · rename_i dst life hres
    obtain ⟨hdst, hallow⟩ := resolveForwardTarget_spec hoffers htarget hres
    have hnamed := remembers_named htarget hdst life
    split at h <;> rename_i hsess
    · obtain ⟨rfl, rfl⟩ := Prod.mk.inj h
      exact ⟨acts_getOrCreateSess hnamed hsess, nofun⟩
    obtain ⟨hused, rfl⟩ := Prod.mk.inj h
    refine ⟨(acts_getOrCreateSess hnamed hsess).tail (.send hdst hallow), ?_⟩
    intro dst' life' heq
    rw [heq] at hused
    split at hused
    · cases hused
    · cases hused
      exact hdst
  · obtain ⟨rfl, rfl⟩ := Prod.mk.inj h
    exact ⟨acts_claimLookup htarget, nofun⟩

lemma acts_forwardServerDgram (hoffers : Offers e.toKnowledge c.sessions item D)
    (h : c.forwardServerDgram hasher e item.sess item.target item.payload item.target staged =
      (used, c')) : Acts hasher item I D c c' ∧ ∀ dst life, used = some (dst, life) → D dst := by
  cases htarget : item.target with
  | ip dst =>
    have h₁ : c.forwardServerDgram hasher e item.sess (.ip dst) item.payload item.target staged =
        (used, c') := by
      rw [← htarget]
      exact h
    exact acts_forwardServerDgram_ip (hoffers.ip dst htarget) h₁
  | domain host port =>
    have h₁ : c.forwardServerDgram hasher e item.sess (.domain host port) item.payload
        item.target staged = (used, c') := by
      rw [← htarget]
      exact h
    exact acts_forwardServerDgram_domain hoffers htarget h₁

lemma acts_tryStage (hdst : D dst)
    (h : c.tryStage e item.sess item.target dst item.payload = some c') :
    Acts hasher item I D c c' := by
  unfold tryStage at h
  split at h
  · rename_i hcond
    cases h
    rw [and_eq_true] at hcond
    exact .single (.send hdst hcond.2)
  · cases h

lemma act_pinArm {nowMs : Nat} {p : ConnPin} (hdst : D dst)
    (htarget : item.target = .domain host port)
    (h : pinArm none nowMs item.sess host port dst life = some p) :
    Act hasher item I D c { c with pins := c.pins.pinStore p } := by
  unfold pinArm at h
  split at h
  · cases h
  · cases h
    exact .pin rfl ⟨htarget, hdst⟩

lemma acts_pinCache {nowMs : Nat} (hdst : D dst) (htarget : item.target = .domain host port) :
    Acts hasher item I D c
      { c with pins := c.pins.pinCache nowMs item.sess host port dst life } := by
  unfold PinCache.pinCache
  split
  · rename_i p harm
    exact .single (act_pinArm hdst htarget harm)
  · exact .refl

/-- What the pins, the session's destination and the memo give for a name without a pin yet. -/
lemma resolvePin_none_spec {pin : Option ConnPin} (hoffers : Offers k c.sessions item D)
    (htarget : item.target = .domain host port)
    (h : resolvePin k allowPrivate c.sessions none item.sess item.sess host port =
      (some dst, pin)) :
    D dst ∧ ∃ life, pin = pinArm none k.nowMs item.sess host port dst life := by
  unfold resolvePin at h
  rw [filter_none] at h
  split at h
  · rename_i dst' life hfound
    split at h
    · obtain ⟨heq, rfl⟩ := Prod.mk.inj h
      cases heq
      exact ⟨hoffers.dest host port htarget _ _ hfound, life, rfl⟩
    · cases h
  split at h
  · rename_i dst' life hmemo
    split at h
    · obtain ⟨heq, rfl⟩ := Prod.mk.inj h
      cases heq
      exact ⟨hoffers.memo host port htarget _ _ hmemo, life, rfl⟩
    · cases h
  · cases h

lemma pinGet_spec (hpins : PinsOffer c.pins item D) (htarget : item.target = .domain host port)
    (h : c.pins.pinGet k.nowMs item.sess host port = some dst) : D dst := by
  unfold PinCache.pinGet at h
  obtain ⟨slot, hslot, h⟩ := bind_eq_some_iff.mp h
  obtain ⟨p, hp, h⟩ := bind_eq_some_iff.mp h
  split at h
  · rename_i hfor
    cases h
    simp only [pinIsFor, and_eq_true, decide_eq_true_eq] at hfor
    obtain ⟨⟨hsess, hport, hhost⟩, -⟩ := hfor
    refine hpins slot (List.mem_of_find?_eq_some hslot) p hp hsess ?_
    rw [htarget, hhost, hport]
  · cases h

/-- The fast path's address is known, and at most it pins one. -/
lemma resolveFast_spec {want : Option SocketAddr} {pins : PinCache}
    (hoffers : Offers k c.sessions item D) (hpins : PinsOffer c.pins item D)
    (h : resolveFast k allowPrivate c.sessions c.pins item.sess item.target = (want, pins)) :
    Acts hasher item I D c { c with pins := pins } ∧ ∀ dst, want = some dst → D dst := by
  unfold resolveFast at h
  split at h
  · rename_i dst htarget
    obtain ⟨rfl, rfl⟩ := Prod.mk.inj h
    refine ⟨.refl, ?_⟩
    rintro dst' ⟨⟩
    exact hoffers.ip dst htarget
  rename_i host port htarget
  split at h
  · rename_i dst hget
    obtain ⟨rfl, rfl⟩ := Prod.mk.inj h
    refine ⟨.refl, ?_⟩
    rintro dst' ⟨⟩
    exact pinGet_spec hpins htarget hget
  split at h
  · rename_i dst p hpin
    obtain ⟨rfl, rfl⟩ := Prod.mk.inj h
    obtain ⟨hdst, life, harm⟩ := resolvePin_none_spec hoffers htarget hpin
    refine ⟨.single (act_pinArm hdst htarget harm.symm), ?_⟩
    rintro dst' ⟨⟩
    exact hdst
  · rename_i want' pin hnot hpin
    obtain ⟨rfl, rfl⟩ := Prod.mk.inj h
    refine ⟨.refl, ?_⟩
    intro dst heq
    subst heq
    exact (resolvePin_none_spec hoffers htarget hpin).1

lemma acts_forwardV3Item (hoffers : Offers e.toKnowledge c.sessions item D)
    (hpins : PinsOffer c.pins item D) :
    Acts hasher item I D c (c.forwardV3Item hasher e item.sess item.target item.payload) := by
  unfold forwardV3Item
  obtain ⟨⟨want, pins⟩, hfast⟩ : ∃ r,
      resolveFast e.toKnowledge allowPrivate c.sessions c.pins item.sess item.target = r :=
    ⟨_, rfl⟩
  have hspec : Acts hasher item I D c { c with pins := pins } ∧ ∀ dst, want = some dst → D dst :=
    resolveFast_spec hoffers hpins hfast
  obtain ⟨hacts, hwant⟩ := hspec
  have hoffers₁ :
      Offers e.toKnowledge ({ c with pins := pins } : ServerConn allowPrivate).sessions item D :=
    hoffers
  rw [hfast]
  dsimp only
  split
  · rename_i c₁ hstage
    obtain ⟨dst, hdst, hstage⟩ := bind_eq_some_iff.mp hstage
    exact hacts.trans (acts_tryStage (hwant dst hdst) hstage)
  split
  · rename_i dst life c₁ host port hforward htarget
    obtain ⟨hsent, hused⟩ := acts_forwardServerDgram hoffers₁ hforward
    exact (hacts.trans hsent).trans (acts_pinCache (hused dst life rfl) htarget)
  · rename_i used c₁ hforward hnot
    exact hacts.trans (acts_forwardServerDgram hoffers₁ hforward).1

/-- What a flow's binding sends to. -/
def bindingDst (b : FlowBinding) : Option SocketAddr := b.target.socketAddr <|> b.resolvedFirst

lemma acts_forwardFlow {b : FlowBinding} {payload : Bytes}
    (hitem : item = ⟨b.session, b.target, payload⟩)
    (hdst : ∀ dst, bindingDst b = some dst → D dst) :
    Acts hasher item I D c (c.forwardFlow hasher e (some b) payload) := by
  subst hitem
  unfold forwardFlow
  split
  · exact .refl
  rename_i b' hopen
  obtain rfl : b = b' := some.inj (filter_eq_some_iff.mp hopen).1
  split
  · exact .refl
  rename_i dst hb
  split
  · rename_i c₁ hstage
    exact acts_tryStage (hdst dst hb) hstage
  obtain ⟨⟨used, c₁⟩, hforward⟩ : ∃ r,
      c.forwardServerDgram hasher e b.session (.ip dst) payload b.target true = r := ⟨_, rfl⟩
  rw [hforward]
  exact (acts_forwardServerDgram_ip (hdst dst hb) hforward).1

lemma acts_openDomain {id : UInt32} (hid : I id) (htarget : item.target = .domain host port)
    (hoffers : Offers e.toKnowledge c.sessions item D) (hpins : PinsOffer c.pins item D) :
    Acts hasher item I D c (c.openDomain hasher e id item.sess host port item.payload) := by
  have hqueue : Act hasher item I D c { c with opens :=
      (c.opens.queuePendingOpenPayload item.sess id item.target item.payload).2 } := .queue id
  unfold openDomain
  dsimp only
  rw [← htarget]
  split
  · split
    · rename_i dst life hres
      obtain ⟨hdst, hallow⟩ := resolveForwardTarget_spec hoffers htarget hres
      have hnamed := remembers_named htarget hdst life
      split <;> rename_i hsess
      · exact acts_getOrCreateSess hnamed hsess
      · refine ((acts_getOrCreateSess hnamed hsess).tail (.send hdst hallow)).trans ?_
        refine (acts_pinCache hdst htarget).tail (.install id hid ?_)
        intro a ha
        rw [List.mem_singleton.mp ha]
        exact hdst
    · split
      · rename_i opens hstart
        exact .single (.begin hid htarget hstart)
      · exact .refl
      · split
        · exact acts_forwardV3Item hoffers hpins
        rename_i opens hnot hqueued
        -- The same question a moment ago found no lookup.
        exact absurd (Prod.mk.inj hqueued).1.symm hnot
  · rename_i opens hnot hqueued
    rw [hqueued] at hqueue
    exact .single hqueue

lemma acts_ingressOpen {id : UInt32} (hopen : Wire.wireIdServerOwned id = false → I id)
    (hoffers : Offers e.toKnowledge c.sessions item D) (hpins : PinsOffer c.pins item D) :
    Acts hasher item I D c (c.ingressOpen hasher e id item.sess item.target item.payload) := by
  unfold ingressOpen
  split
  · exact .refl
  rename_i hguard
  have hid : I id := by
    cases h : Wire.wireIdServerOwned id with
    | false => exact hopen h
    | true =>
      rw [h, Bool.or_true] at hguard
      exact absurd rfl hguard
  split
  · exact .refl
  split
  · split
    · exact .refl
    split <;> rename_i hforward
    · exact (acts_forwardServerDgram hoffers hforward).1.tail (.install id hid nofun)
    · exact (acts_forwardServerDgram hoffers hforward).1
  · rename_i host port htarget
    exact acts_openDomain hid htarget hoffers hpins

end

section

variable {hasher : GateHasher} {z : Sizes}

/-- Something that every act for a good item keeps, and that has an address for every good item.
The items are those that a datagram can carry in the state it meets. -/
structure Kept (hasher : GateHasher) (env : Nat → Env)
    (Good : Item → Prop) (I : Item → UInt32 → Prop) (D : Item → SocketAddr → Prop)
    (Inv : ServerConn allowPrivate → Prop) : Prop where
  act : ∀ item c c', Good item → Inv c → Act hasher item (I item) (D item) c c' → Inv c'
  offers : ∀ item c i, Good item → Inv c → Offers (env i).toKnowledge c.sessions item (D item)
  pins : ∀ item c, Good item → Inv c → PinsOffer c.pins item (D item)

variable {env : Nat → Env} {Good : Item → Prop} {I : Item → UInt32 → Prop}
  {D : Item → SocketAddr → Prop} {Inv : ServerConn allowPrivate → Prop}
  {c : ServerConn allowPrivate}

section

variable (h : Kept hasher env Good I D Inv)
include h

lemma Kept.acts {item : Item} (hgood : Good item) {c c' : ServerConn allowPrivate} (hinv : Inv c)
    (hacts : Acts hasher item (I item) (D item) c c') : Inv c' := by
  induction hacts with
  | refl => exact hinv
  | tail _ hact ih => exact h.act item _ _ hgood ih hact

/-- A binding gives good items, whose addresses are those it sends to. -/
def GoodBinding (Good : Item → Prop) (D : Item → SocketAddr → Prop) (b : FlowBinding)
    (payload : Bytes) : Prop :=
  Good ⟨b.session, b.target, payload⟩ ∧
    ∀ dst, bindingDst b = some dst → D ⟨b.session, b.target, payload⟩ dst

lemma Kept.forwardFlow (hinv : Inv c) (i : Nat) {binding : Option FlowBinding} {payload : Bytes}
    (hgood : ∀ b, binding = some b → GoodBinding Good D b payload) :
    Inv (c.forwardFlow hasher (env i) binding payload) := by
  cases binding with
  | none => exact hinv
  | some b =>
    obtain ⟨hitem, hdst⟩ := hgood b rfl
    exact h.acts hitem hinv (acts_forwardFlow rfl hdst)

lemma Kept.route (hinv : Inv c) {wireId sess : Option UInt32} {addr : Option TargetAddr}
    {payload : Bytes}
    (hnamed : ∀ s target, sess = some s → addr = some target → Good ⟨s, target, payload⟩)
    (hopen : ∀ id s target, wireId = some id → sess = some s → addr = some target →
      Wire.wireIdServerOwned id = false → I ⟨s, target, payload⟩ id)
    (hflow : ∀ id b, wireId = some id → sess = none → addr = none → c.registry.lookup id = some b →
      GoodBinding Good D b payload) : Inv (c.route hasher (env 0) wireId sess addr payload) := by
  unfold ServerConn.route
  split
  · rename_i id s target
    have hitem := hnamed s target rfl rfl
    exact h.acts hitem hinv
      (acts_ingressOpen (hopen id s target rfl rfl rfl) (h.offers _ c 0 hitem hinv)
        (h.pins _ c hitem hinv))
  · rename_i s target
    have hitem := hnamed s target rfl rfl
    exact h.acts hitem hinv (acts_forwardV3Item (h.offers _ c 0 hitem hinv) (h.pins _ c hitem hinv))
  · rename_i id
    exact h.forwardFlow hinv 0 fun b hb => hflow id b rfl rfl rfl hb
  · exact hinv

lemma Kept.shift : Kept hasher (fun i => env (i + 1)) Good I D Inv :=
  ⟨h.act, fun item c i => h.offers item c (i + 1), h.pins⟩

lemma Kept.forwardItems (hinv : Inv c) {items : List (Option FlowBinding × Bytes)}
    (hgood : ∀ item ∈ items, ∀ b, item.1 = some b → GoodBinding Good D b item.2) :
    Inv (forwardItems hasher items env c) := by
  induction items generalizing env c with
  | nil => exact hinv
  | cons item items ih =>
    have hhead := h.forwardFlow hinv 0 (hgood item (List.mem_cons_self ..))
    exact ih h.shift hhead fun item' hmem => hgood item' (List.mem_cons_of_mem item hmem)

end

/-- What every act keeps, whatever the item and the address, and what does not depend on the
fragments, every datagram keeps. -/
lemma Kept.ingress {Inv : ServerConn allowPrivate → Prop}
    (hact : ∀ item c c', Inv c → Act hasher item (fun _ => True) (fun _ => True) c c' → Inv c')
    (hreasm : ∀ c reasm, Inv c → Inv { c with reasm := reasm }) (hinv : Inv c) (d : Bytes) :
    Inv (c.ingress hasher z env d) := by
  have h : Kept hasher env (fun _ => True) (fun _ _ => True) (fun _ _ => True) Inv :=
    { act := fun item c c' _ => hact item c c'
      offers := fun _ _ _ _ _ => by constructor <;> (intros; trivial)
      pins := by intros; exact fun _ _ _ _ _ _ => trivial }
  have hbinding : ∀ b payload, GoodBinding (fun _ => True) (fun _ _ => True) b payload :=
    fun _ _ => ⟨trivial, fun _ _ => trivial⟩
  unfold ServerConn.ingress
  split
  · unfold ingressData
    split
    · exact hinv
    split
    · exact hinv
    · exact h.route hinv (fun _ _ _ _ => trivial) (fun _ _ _ _ _ _ _ => trivial)
        fun _ b _ _ _ _ => hbinding b _
  · unfold ingressTrain
    split
    · exact hinv
    · exact h.forwardItems hinv fun item _ b _ => hbinding b item.2
  · unfold ingressFrag
    split
    · exact hinv
    split
    · rename_i reasm _
      exact hreasm c reasm hinv
    rename_i whole reasm _
    have hinv₁ : Inv { c with reasm := reasm } := hreasm c reasm hinv
    split
    · exact hinv₁
    · exact h.route hinv₁ (fun _ _ _ _ => trivial) (fun _ _ _ _ _ _ _ => trivial)
        fun _ b _ _ _ _ => hbinding b _
  · exact hinv
  · exact hinv

end

end ServerConn

end MyQuic2
