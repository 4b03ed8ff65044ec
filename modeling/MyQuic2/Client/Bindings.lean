import MyQuic2.Client.Uplink

/-!
# What the client's bindings have in common

A binding keeps its id, its session and its target in every table that holds it. A
property of these three is therefore a property of all bindings as soon as it holds
where a binding is made: for an id that the client takes from its counter, and for a
flow that a frame of the server announces.
-/

namespace MyQuic2

open Option List SessionFlows

namespace FlowBinding

variable (b : FlowBinding)

@[simp] lemma key_rearmContext : b.rearmContext.key = b.key := by
  unfold rearmContext
  split <;> rfl

@[simp] lemma key_follow (shared : Option FlowBinding) : (b.follow shared).key = b.key := by
  cases shared with
  | none => rfl
  | some shared =>
    dsimp only [follow]
    split <;> rfl

end FlowBinding

namespace SessionFlows

lemma mem_live_of_find {t : SessionFlows} {addr : TargetAddr} {b : FlowBinding}
    (h : t.find addr = some b) : b ∈ t.live ∧ b.target = addr := by
  have htest := find?_some h
  rw [decide_eq_true_eq] at htest
  exact ⟨mem_of_find?_eq_some h, htest⟩

end SessionFlows

variable {P Q : FlowKey → Prop}

/-- Every flow of the connection has the property. -/
def ClientConn.Holds (P : FlowKey → Prop) (c : ClientConn) : Prop :=
  ∀ id b, c.registry.lookup id = some b → P b.key

/-- Every flow an association knows has the property and is one of its session; the one it used
last is for the address it remembers. -/
structure Assoc.Holds (P : FlowKey → Prop) (a : Assoc) : Prop where
  flows : ∀ b ∈ a.flows.live, P b.key ∧ b.session = a.sess
  last : ∀ addr b, a.last = some (addr, b) → P b.key ∧ b.target = addr

namespace ClientConn

variable {c c' : ClientConn} (cached : String → UInt16 → Option SocketAddr)

lemma Holds.insert (h : c.Holds P) (id : UInt32) {b : FlowBinding} (hb : P b.key) :
    { c with registry := c.registry.insert id b }.Holds P := by
  intro id' b' hb'
  rcases Map.lookup_insert_cases hb' with ⟨-, rfl⟩ | ⟨-, hb'⟩
  · exact hb
  · exact h id' b' hb'

/-- The flow of a frame is known or one that the frame announces. -/
lemma Holds.flowFor {w : Wire} {id : UInt32} {sess : Option UInt32} {addr : Option TargetAddr}
    {b : Option FlowBinding} (h : c.Holds P)
    (hnew : Wire.wireIdServerOwned id = true → ∀ s a src, sess = some s → addr = some a →
      addrDst cached a = some src → P (id, s, .ip src))
    (hflow : c.flowFor cached w id sess addr = (b, c')) :
    c'.Holds P ∧ ∀ b', b = some b' → P b'.key := by
  unfold ClientConn.flowFor at hflow
  split at hflow
  · rename_i known hknown
    cases hflow
    refine ⟨h, fun b' hb' => ?_⟩
    cases hb'
    exact h id known hknown
  split at hflow
  · cases hflow
    exact ⟨h, nofun⟩
  unfold installServerFlow at hflow
  split at hflow
  · cases hflow
    exact ⟨h, nofun⟩
  rename_i hserver
  rw [Bool.not_eq_true, Bool.not_eq_false'] at hserver
  split at hflow
  · rename_i _ _ _ s a _
    split at hflow
    · cases hflow
      exact ⟨h, nofun⟩
    rename_i src hsrc
    have hkey : P (((FlowBinding.new id s (.ip src)).setReplySrc src).markOpen).key := by
      exact hnew hserver s a src rfl rfl hsrc
    split at hflow
    · cases hflow
      refine ⟨h.insert id hkey, fun b' hb' => ?_⟩
      cases hb'
      exact hkey
    · cases hflow
      exact ⟨h, nofun⟩
  · cases hflow
    exact ⟨h, nofun⟩

lemma Holds.dispatchData (w : Wire) (f : Wire.DataView) (h : c.Holds P)
    (hnew : ∀ id s a src, f.wireId = some id → Wire.wireIdServerOwned id = true →
      f.sess = some s → f.addr = some a → addrDst cached a = some src → P (id, s, .ip src)) :
    (c.dispatchData cached w f).2.Holds P := by
  unfold ClientConn.dispatchData
  split
  · split <;> exact h
  rename_i id hid
  split
  · rename_i c' hflow
    exact (h.flowFor cached (fun hown s a src => hnew id s a src hid hown) hflow).1
  rename_i b c' hflow
  obtain ⟨hc', hb⟩ := h.flowFor cached (fun hown s a src => hnew id s a src hid hown) hflow
  split
  · exact hc'
  refine hc'.insert id ?_
  rw [FlowBinding.key_markOpen]
  split
  · exact hb b rfl
  · exact hb b rfl

end ClientConn

namespace Assoc

variable {a : Assoc}

lemma new_holds (wire : Wire) (sess nextId : UInt32) : (Assoc.new wire sess nextId).Holds P where
  flows b hb := by
    cases hb
  last addr b hb := by cases hb

lemma Holds.forget (h : a.Holds P) : { a with last := none }.Holds P where
  flows := h.flows
  last addr b hb := by cases hb

lemma Holds.remember (h : a.Holds P) {addr : TargetAddr} {b : FlowBinding} (hb : P b.key)
    (haddr : b.target = addr) : { a with last := some (addr, b) }.Holds P where
  flows := h.flows
  last addr' b' hb' := by
    cases hb'
    exact ⟨hb, haddr⟩

/-- An association whose table has one more flow. -/
lemma Holds.insert (h : a.Holds P) {b : FlowBinding} {flows : SessionFlows} (hb : P b.key)
    (hsess : b.session = a.sess) (hins : a.flows.insert b = some flows) :
    { a with flows := flows }.Holds P where
  flows c hc := by
    rcases mem_live_of_insert hins hc with rfl | hc
    · exact ⟨hb, hsess⟩
    · exact h.flows c hc
  last := h.last

lemma Holds.remove (h : a.Holds P) (wireId : UInt32) :
    { a with flows := a.flows.remove wireId }.Holds P where
  flows c hc := h.flows c (mem_live_of_remove hc)
  last := h.last

lemma Holds.refresh (h : a.Holds P) (registry : Map UInt32 FlowBinding) :
    (a.refresh registry).Holds P where
  flows b hb := by
    rw [mem_live, Assoc.refresh, List.mem_map] at hb
    obtain ⟨slot, hslot, hb⟩ := hb
    obtain ⟨c, rfl, rfl⟩ := Option.map_eq_some_iff.mp hb
    have hc := h.flows c (mem_live.mpr hslot)
    have hkey := c.key_follow (registry.lookup c.wireId)
    rw [hkey]
    exact ⟨hc.1, (congrArg (fun k : FlowKey => k.2.1) hkey).trans hc.2⟩
  last addr b hb := by
    obtain ⟨⟨_, c⟩, hlast, heq⟩ := map_eq_some_iff.mp hb
    cases heq
    have hc := h.last _ c hlast
    have hkey := c.key_follow (registry.lookup c.wireId)
    rw [hkey]
    exact ⟨hc.1, (congrArg (fun k : FlowKey => k.2.2) hkey).trans hc.2⟩

end Assoc

namespace ClientFlows

variable {f : ClientFlows} {a : Assoc} {addr : TargetAddr}

lemma holds_remove (h : f.conn.Holds P) (wireId : UInt32) : (f.remove wireId).conn.Holds P := by
  intro id b hb
  exact h id b (Map.lookup_erase_iff.mp hb).2

lemma holds_modify (h : f.conn.Holds P) (wireId : UInt32) {g : FlowBinding → FlowBinding}
    (hg : ∀ b, (g b).key = b.key) : (f.modify wireId g).conn.Holds P := by
  intro id b hb
  have hmapped : (f.conn.registry.mapValues fun id b => if id = wireId then g b else b).lookup id =
      some b := hb
  rw [Map.lookup_mapValues] at hmapped
  obtain ⟨c, hc, rfl⟩ := map_eq_some_iff.mp hmapped
  split
  · rw [hg]
    exact h id c hc
  · exact h id c hc

lemma findServerFlow_spec {sess : UInt32} {b : FlowBinding}
    (h : f.findServerFlow sess addr = some b) :
    (∃ id, f.conn.registry.lookup id = some b) ∧ Wire.wireIdServerOwned b.wireId = true ∧
      b.session = sess ∧ b.target = addr := by
  have htest := find?_some h
  simp only [Bool.and_eq_true, decide_eq_true_eq] at htest
  obtain ⟨⟨id, b'⟩, hentry, heq⟩ := mem_map.mp (mem_of_find?_eq_some h)
  obtain rfl : b' = b := heq
  exact ⟨⟨id, AList.mem_lookup_iff.mpr hentry⟩, htest.1.1, htest.1.2, htest.2⟩

/-- What a search does to the tables: an id is taken at most once, every table keeps any property
that the flow of this id has too, and so does what is found. -/
structure Takes {α : Type} (found : (FlowKey → Prop) → α → Prop) (f : ClientFlows) (a : Assoc)
    (addr : TargetAddr) (got : Option UInt32) (out : α × ClientFlows × Assoc) : Prop where
  wire : out.2.1.wire = f.wire
  sess : out.2.2.sess = a.sess
  frag : out.2.2.frag = a.frag
  grant : f.ids.Grant f.wire (got, out.2.1.ids)
  issued : out.2.1.issued = f.issued ++ got.toList.map (·, a.sess, addr)
  holds : ∀ P : FlowKey → Prop, f.conn.Holds P → a.Holds P →
    (∀ id, got = some id → P (id, a.sess, addr)) →
    out.2.1.conn.Holds P ∧ out.2.2.Holds P ∧ found P out.1

/-- A binding that is found is for the session and the address. -/
abbrev Binds (f : ClientFlows) (a : Assoc) (addr : TargetAddr) :=
  f.Takes (fun P (b? : Option FlowBinding) =>
    ∀ b, b? = some b → P b.key ∧ b.session = a.sess ∧ b.target = addr) a addr

/-- No binding, and nothing has changed. -/
lemma binds_none : f.Binds a addr none (none, f, a) where
  wire := rfl
  sess := rfl
  frag := rfl
  grant := FlowIds.grant_refused
  issued := (append_nil _).symm
  holds _ hf ha _ := ⟨hf, ha, nofun⟩

lemma binds_known {a' : Assoc} {b : FlowBinding} (hsess : a'.sess = a.sess)
    (hfrag : a'.frag = a.frag) (h : ∀ P : FlowKey → Prop, f.conn.Holds P → a.Holds P →
      a'.Holds P ∧ P b.key ∧ b.session = a.sess ∧ b.target = addr) :
    f.Binds a addr none (some b, f, a') where
  wire := rfl
  sess := hsess
  frag := hfrag
  grant := FlowIds.grant_refused
  issued := (append_nil _).symm
  holds P hf ha _ := by
    refine ⟨hf, (h P hf ha).1, fun b' hb' => ?_⟩
    cases hb'
    exact (h P hf ha).2

/-- The search goes on after the tables have lost flows. -/
lemma Binds.of_less {f' : ClientFlows} {a' : Assoc} {got : Option UInt32}
    {out : Option FlowBinding × ClientFlows × Assoc} (h : f'.Binds a' addr got out)
    (hwire : f'.wire = f.wire) (hids : f'.ids = f.ids) (hissued : f'.issued = f.issued)
    (hsess : a'.sess = a.sess) (hfrag : a'.frag = a.frag)
    (hless : ∀ P : FlowKey → Prop, f.conn.Holds P → a.Holds P → f'.conn.Holds P ∧ a'.Holds P) :
    f.Binds a addr got out where
  wire := h.wire.trans hwire
  sess := h.sess.trans hsess
  frag := h.frag.trans hfrag
  grant := by
    rw [← hids, ← hwire]
    exact h.grant
  issued := by
    rw [h.issued, hissued, hsess]
  holds P hf ha hP := by
    obtain ⟨hf', ha'⟩ := hless P hf ha
    rw [← hsess] at hP ⊢
    exact h.holds P hf' ha' hP

/-- The flow of a new id. -/
lemma insertNewFor_spec (sess : UInt32) :
    ∃ got : Option UInt32, f.ids.Grant f.wire (got, (f.insertNewFor sess addr).2.ids) ∧
      (f.insertNewFor sess addr).2.wire = f.wire ∧
      (f.insertNewFor sess addr).2.issued = f.issued ++ got.toList.map (·, sess, addr) ∧
      ∀ P : FlowKey → Prop, f.conn.Holds P → (∀ id, got = some id → P (id, sess, addr)) →
        (f.insertNewFor sess addr).2.conn.Holds P ∧
          ∀ b, (f.insertNewFor sess addr).1 = some b →
            P b.key ∧ b.session = sess ∧ b.target = addr := by
  have hgrant : f.ids.Grant f.wire (f.registry.allocFor f.wire f.ids) := FlowRegistry.grant_allocFor
  unfold insertNewFor FlowRegistry.insertNewFor
  cases hget : f.registry.allocFor f.wire f.ids with
  | mk got ids =>
    rw [hget] at hgrant
    refine ⟨got, ?_⟩
    cases got with
    | none => exact ⟨hgrant, rfl, rfl, fun P hf _ => ⟨hf, nofun⟩⟩
    | some id =>
      dsimp only
      cases hid : f.registry.map.lookup id with
      | some existing =>
        refine ⟨hgrant, rfl, rfl, fun P hf _ => ⟨hf, fun b hb => ?_⟩⟩
        have hreopen : (FlowRegistry.reopen existing (.new id sess addr)).toOption = some b := hb
        unfold FlowRegistry.reopen at hreopen
        split at hreopen
        · rename_i hsame
          cases hreopen
          exact ⟨hf id existing hid, hsame⟩
        · cases hreopen
      | none =>
        refine ⟨hgrant, rfl, rfl, fun P hf hP => ⟨fun id' b hb => ?_, fun b hb => ?_⟩⟩
        · rcases Map.lookup_insert_cases hb with ⟨-, rfl⟩ | ⟨-, hb⟩
          · exact hP id rfl
          · exact hf id' b hb
        · cases hb
          exact ⟨hP id rfl, rfl, rfl⟩

lemma newFlow_binds : ∃ got, f.Binds a addr got (f.newFlow a addr) := by
  unfold newFlow
  split
  · exact ⟨none, binds_none⟩
  obtain ⟨got, hgrant, hwire, hissued, hholds⟩ := f.insertNewFor_spec a.sess
  refine ⟨got, ?_⟩
  generalize f.insertNewFor a.sess addr = out at hgrant hwire hissued hholds ⊢
  obtain ⟨b?, f'⟩ := out
  cases b? with
  | none =>
    exact ⟨hwire, rfl, rfl, hgrant, hissued, fun P hf ha hP => ⟨(hholds P hf hP).1, ha, nofun⟩⟩
  | some b =>
    dsimp only
    cases hins : a.flows.insert b with
    | none =>
      -- The flow is given back, and its id is lost.
      exact ⟨hwire, rfl, rfl, hgrant, hissued,
        fun P hf ha hP => ⟨holds_remove (hholds P hf hP).1 b.wireId, ha, nofun⟩⟩
    | some flows =>
      refine ⟨hwire, rfl, rfl, hgrant, hissued, fun P hf ha hP => ?_⟩
      obtain ⟨hf', hb⟩ := hholds P hf hP
      obtain ⟨hkey, hsess, htarget⟩ := hb b rfl
      refine ⟨hf', (ha.insert hkey hsess hins).remember hkey htarget, fun b' hb' => ?_⟩
      cases hb'
      exact ⟨hkey, hsess, htarget⟩

variable (f : ClientFlows) (rejected : Bool) (a : Assoc) (addr : TargetAddr)

lemma openFlow_binds : ∃ got, f.Binds a addr got (f.openFlow rejected a addr) := by
  unfold openFlow
  split
  · exact ⟨none, binds_none⟩
  cases hfind : f.findServerFlow a.sess addr with
  | none => exact f.newFlow_binds
  | some server =>
    obtain ⟨⟨id, hid⟩, -, hsess, htarget⟩ := findServerFlow_spec hfind
    dsimp only
    split
    · cases hins : a.flows.insert server with
      | none => exact ⟨none, binds_none⟩
      | some flows =>
        refine ⟨none, binds_known rfl rfl fun P hf ha => ?_⟩
        have hkey := hf id server hid
        exact ⟨(ha.insert hkey hsess hins).remember hkey htarget, hkey, hsess, htarget⟩
    · split
      · obtain ⟨got, hgot⟩ := (f.remove server.wireId).newFlow_binds
        exact ⟨got, hgot.of_less rfl rfl rfl rfl rfl
          fun P hf ha => ⟨holds_remove hf server.wireId, ha⟩⟩
      · exact f.newFlow_binds

lemma ensureBinding_binds : ∃ got, f.Binds a addr got (f.ensureBinding rejected a addr) := by
  unfold ensureBinding
  split
  · rename_i addr' cached hfilter
    obtain ⟨hlast, htest⟩ := filter_eq_some_iff.mp hfilter
    simp only [Bool.and_eq_true, decide_eq_true_eq] at htest
    obtain ⟨⟨rfl, hsess⟩, -⟩ := htest
    refine ⟨none, binds_known rfl rfl fun P _ ha => ?_⟩
    obtain ⟨hkey, htarget⟩ := ha.last addr' cached hlast
    exact ⟨ha, hkey, hsess, htarget⟩
  dsimp only
  cases hfind : a.flows.find addr with
  | none =>
    obtain ⟨got, hgot⟩ := f.openFlow_binds rejected { a with last := none } addr
    exact ⟨got, hgot.of_less rfl rfl rfl rfl rfl fun P hf ha => ⟨hf, ha.forget⟩⟩
  | some existing =>
    obtain ⟨hmem, htarget⟩ := mem_live_of_find hfind
    dsimp only
    split
    · refine ⟨none, binds_known rfl rfl fun P _ ha => ?_⟩
      obtain ⟨hkey, hsess⟩ := ha.flows existing hmem
      exact ⟨ha.forget.remember hkey htarget, hkey, hsess, htarget⟩
    -- A closed flow leaves both tables before another one is opened.
    obtain ⟨got, hgot⟩ := (f.remove existing.wireId).openFlow_binds rejected
      { a with last := none, flows := a.flows.remove existing.wireId } addr
    exact ⟨got, hgot.of_less rfl rfl rfl rfl rfl fun P hf ha =>
      ⟨holds_remove hf existing.wireId, ha.forget.remove existing.wireId⟩⟩

end ClientFlows

/-- The form of a payload is one for its session and its address, and its id, if it has one, is
that of a flow with the property. -/
def R2StageKind.About (P : FlowKey → Prop) (sess : UInt32) (addr : TargetAddr) :
    R2StageKind → Prop
  | opening id sess' addr' src => sess' = sess ∧ addr' = addr ∧ src = false ∧ P (id, sess, addr)
  | inline sess' addr' src => sess' = sess ∧ addr' = addr ∧ src = false
  | steady id => P (id, sess, addr)

namespace Uplink

variable {u : Uplink}

/-- What addressing a payload does to the tables, and the form it gives. -/
abbrev Addresses (f : ClientFlows) (a : Assoc) (addr : TargetAddr) :=
  f.Takes (fun P kind => R2StageKind.About P a.sess addr kind) a addr

lemma address_spec (f : ClientFlows) (a : Assoc) (addr : TargetAddr) (e : SendEnv) :
    ∃ got, Addresses f a addr got (address f a addr e) := by
  obtain ⟨got, h⟩ := f.ensureBinding_binds e.rejected a addr
  refine ⟨got, ?_⟩
  unfold address
  generalize f.ensureBinding e.rejected a addr = out at h ⊢
  obtain ⟨b?, f', a'⟩ := out
  cases b? with
  | none =>
    refine ⟨h.wire, h.sess, h.frag, h.grant, h.issued, fun P hf ha hP => ?_⟩
    obtain ⟨hf', ha', -⟩ := h.holds P hf ha hP
    exact ⟨hf', ha', h.sess, rfl, rfl⟩
  | some b =>
    refine ⟨h.wire, h.sess, h.frag, h.grant, h.issued, fun P hf ha hP => ?_⟩
    obtain ⟨hf', ha', hb⟩ := h.holds P hf ha hP
    obtain ⟨hkey, hsess, htarget⟩ := hb b rfl
    rw [FlowBinding.key, hsess, htarget] at hkey
    refine ⟨ClientFlows.holds_modify hf' b.wireId fun shared => shared.key_follow _, ha', ?_⟩
    dsimp only
    split
    · exact ⟨h.sess, rfl, rfl, hkey⟩
    · exact hkey

/-- Every flow of the client has the property. -/
structure Holds (P : FlowKey → Prop) (u : Uplink) : Prop where
  conn : u.flows.conn.Holds P
  assocs : ∀ key a, u.assocs.lookup key = some a → a.Holds P

lemma Holds.congr {u' : Uplink} (h : u.Holds P) (hflows : u'.flows = u.flows)
    (hassocs : u'.assocs = u.assocs) : u'.Holds P where
  conn := by
    rw [hflows]
    exact h.conn
  assocs := by
    rw [hassocs]
    exact h.assocs

lemma new_holds (wire : Wire) (cap : Nat) : (Uplink.new wire cap).Holds P where
  conn id b hb := by cases hb
  assocs key a ha := by cases ha

lemma holds_withFlows {flows : ClientFlows} (hflows : flows.conn.Holds P)
    (hassocs : ∀ key a, u.assocs.lookup key = some a → a.Holds P) :
    (u.withFlows flows).Holds P where
  conn := hflows
  assocs key a ha := by
    rw [withFlows, Map.lookup_mapValues] at ha
    obtain ⟨a', ha', rfl⟩ := map_eq_some_iff.mp ha
    exact (hassocs key a' ha').refresh _

section

variable (h : u.Holds P) (wireId : UInt32)
include h

lemma Holds.flowAck : (u.flowAck wireId).Holds P :=
  holds_withFlows (ClientFlows.holds_modify h.conn wireId FlowBinding.key_markOpen) h.assocs

lemma Holds.needContext : (u.needContext wireId).Holds P :=
  holds_withFlows (ClientFlows.holds_modify h.conn wireId FlowBinding.key_rearmContext) h.assocs

lemma Holds.flowClose : (u.flowClose wireId).Holds P :=
  holds_withFlows (ClientFlows.holds_remove h.conn wireId) h.assocs

lemma Holds.sessClose (sess : UInt32) : (u.sessClose sess).Holds P := by
  refine holds_withFlows (fun id b hb => ?_) h.assocs
  have hkept : (u.flows.conn.registry.retain fun _ b => b.session ≠ sess).lookup id = some b := hb
  rw [Map.lookup_retain] at hkept
  exact h.conn id b (filter_eq_some_iff.mp hkept).1

lemma Holds.sync (key : Nat) : (u.sync key).Holds P := by
  unfold Uplink.sync
  split
  · exact h
  rename_i a ha
  refine holds_withFlows ?_ fun key' a' ha' => ?_
  · have hfold : ∀ (bs : List FlowBinding) (f : ClientFlows), f.conn.Holds P →
        (bs.foldl (fun f b => f.remove b.wireId) f).conn.Holds P := by
      intro bs
      induction bs with
      | nil => exact fun f hf => hf
      | cons b bs ih => exact fun f hf => ih _ (ClientFlows.holds_remove hf b.wireId)
    exact hfold a.flows.live u.flows h.conn
  · rcases Map.lookup_insert_cases ha' with ⟨-, rfl⟩ | ⟨-, ha'⟩
    · refine ⟨fun b hb => ?_, fun addr b hb => by cases hb⟩
      rw [SessionFlows.live_empty] at hb
      cases hb
    · exact h.assocs key' a' ha'

lemma Holds.openAssoc (key : Nat) (sess nextId : UInt32) :
    (u.openAssoc key sess nextId).Holds P := by
  unfold Uplink.openAssoc
  split
  · exact h
  refine ⟨h.conn, fun key' a' ha' => ?_⟩
  rcases Map.lookup_insert_cases ha' with ⟨-, rfl⟩ | ⟨-, ha'⟩
  · exact Assoc.new_holds _ _ _
  · exact h.assocs key' a' ha'

lemma Holds.closeAssoc (key : Nat) : (u.closeAssoc key).Holds P := by
  unfold Uplink.closeAssoc
  split
  · exact h
  rename_i a ha
  refine Holds.sessClose (u := { u with assocs := u.assocs.erase key })
    ⟨h.conn, fun key' a' ha' => ?_⟩ a.sess
  exact h.assocs key' a' (Map.lookup_erase_iff.mp ha').2

lemma Holds.emit (shape : FrameShape) (run : List Nat) (limit : Nat) :
    (u.emit shape run limit).Holds P := by
  unfold Uplink.emit
  dsimp only
  split
  · exact h
  · exact h.congr rfl rfl

/-- The tables after a payload was addressed, whatever way it leaves. -/
lemma Holds.sendUplink {got : Option UInt32} {key : Nat} {a : Assoc} {addr : TargetAddr}
    {e : SendEnv} (ha : u.assocs.lookup key = some a)
    (hspec : Addresses u.flows a addr got (address u.flows a addr e))
    (hP : ∀ id, got = some id → P (id, a.sess, addr)) (payload : Bytes) :
    (u.sendUplink key a addr payload e).Holds P := by
  obtain ⟨hflows, hassoc, -⟩ := hspec.holds P h.conn (h.assocs key a ha) hP
  have hkeep : ∀ frag, Holds P (Uplink.withFlows { u with
        assocs := u.assocs.insert key { (address u.flows a addr e).2.2 with frag := frag } }
      (address u.flows a addr e).2.1) := by
    intro frag
    refine holds_withFlows hflows fun key' a' ha' => ?_
    rcases Map.lookup_insert_cases ha' with ⟨-, rfl⟩ | ⟨-, ha'⟩
    · exact ⟨hassoc.flows, hassoc.last⟩
    · exact h.assocs key' a' ha'
  unfold Uplink.sendUplink
  split
  · exact h
  dsimp only
  split
  · exact hkeep _
  · exact (hkeep _).congr rfl rfl
  · exact (hkeep _).congr rfl rfl
  · exact (hkeep _).congr rfl rfl

end

lemma stage_of_leaving {a : Assoc} {addr : TargetAddr} {payload : Bytes} {e : SendEnv}
    {item : R2StageItem} (h : u.leaving a addr payload e = .stage item) :
    item = ⟨(address u.flows a addr e).2.2.sess, (address u.flows a addr e).1, payload,
      u.staged.length⟩ ∧ payload.length ≤ batchSmallMax := by
  unfold leaving leave at h
  dsimp only at h
  split at h
  · cases h
  split at h
  · rename_i hlen
    cases h
    exact ⟨rfl, hlen⟩
  · split at h <;> cases h

end Uplink

end MyQuic2
