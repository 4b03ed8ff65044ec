import MyQuic2.Server.Routing

/-!
# Every address is for its name

Whatever a lookup returns was written for the same worker or session, the same name up to
letter case and trailing dots, and the same port. Following the notes from entry to
source leads back to a resolution of that name. A copy ends no later than its source as
long as lives are stored on the clock tick they were read on.
-/

namespace MyQuic2

open List Option AList Routes

namespace Tier

/-- An entry of the one tier may be copied into the other. -/
def Feeds : Tier → Tier → Prop
  | .memo _, .session _ => True
  | .memo _, .pin _ => True
  | .session s, .session s' => s = s'
  | .session s, .pin s' => s = s'
  | _, _ => False

/-- The tier is read by the lookup. -/
def Serves : Tier → Returned → Prop
  | .memo worker, r => worker = r.worker
  | .session s, r => s = r.sess
  | .pin s, r => s = r.sess

lemma Feeds.pin {tier : Tier} {s : UInt32} (h : tier.Feeds (.session s)) : tier.Feeds (.pin s) := by
  cases tier with
  | memo worker => trivial
  | session s' => exact h
  | pin s' => exact h.elim

end Tier

def Answer.Names (a : Answer) (e : Entry) : Prop :=
  a.name = e.name ∧ a.port = e.port ∧ e.addr ∈ a.addrs

/-- An entry answers a lookup: it is for that target and not over. -/
def Entry.Serves (e : Entry) (r : Returned) : Prop :=
  e.tier.Serves r ∧ e.name = dnsName r.host ∧ e.port = r.port ∧ e.addr = r.addr ∧
    r.atMs < e.deadline

/-- An entry says what its source says. -/
def Source.Gives : Source → Entry → Prop
  | .answer a, e => a.Names e
  | .entry s, e => s.tier.Feeds e.tier ∧ s.name = e.name ∧ s.port = e.port ∧ s.addr = e.addr

def DestMemo.entry (m : DestMemo) (s : UInt32) : Entry :=
  ⟨.session s, dnsName m.host, m.port, m.addr, m.expires⟩

def ConnPin.entry (pin : ConnPin) : Entry :=
  ⟨.pin pin.sess, dnsName pin.host, pin.port, pin.addr, pin.expires⟩

namespace Routes

/-- The entry was written. -/
def Logged (t : Routes) (e : Entry) : Prop := ∃ source, (e, source) ∈ t.log

/-- The source was there to be copied. -/
def Known (t : Routes) : Source → Prop
  | .answer a => a ∈ t.answers
  | .entry e => t.Logged e

/-- An entry can be followed to a resolution of its name. -/
def Rooted (t : Routes) (e : Entry) : Prop := ∃ a ∈ t.answers, a.Names e

/-- Everything that is kept was noted, and the notes are right. -/
structure Sound (t : Routes) : Prop where
  memo : ∀ worker slot addr, (t.memo worker).Holds slot → slot.addr = some addr →
    ∃ name port, slot.key = memoKey name port ∧
      t.Logged ⟨.memo worker, name, port, addr, slot.expires⟩
  session : ∀ s e, t.sessions.lookup s = some e → 0 < e.dest.expires → t.Logged (e.dest.entry s)
  pins : ∀ slot ∈ t.pins, ∀ pin, slot.pin = some pin → t.Logged pin.entry
  pin : ∀ pin, t.pin = some pin → t.Logged pin.entry
  carried : ∀ c ∈ t.carried, t.Known c.source ∧
    ∀ nowMs, c.source.Gives (c.entryAt (.session c.sess) nowMs)
  log : ∀ e source, (e, source) ∈ t.log → t.Known source ∧ source.Gives e ∧ t.Rooted e
  returned : ∀ r ∈ t.returned, ∃ e, t.Logged e ∧ e.Serves r

/-- The notes of one state are among those of another. -/
structure Extends (t t' : Routes) : Prop where
  log : t.log ⊆ t'.log
  answers : t.answers ⊆ t'.answers

section

variable {t t' : Routes} (h : Extends t t')
include h

lemma Extends.logged {e : Entry} (hlogged : t.Logged e) : t'.Logged e := by
  obtain ⟨source, hmem⟩ := hlogged
  exact ⟨source, h.log hmem⟩

lemma Extends.known {source : Source} (hknown : t.Known source) : t'.Known source := by
  cases source with
  | answer a => exact h.answers hknown
  | entry e => exact h.logged hknown

lemma Extends.rooted {e : Entry} (hrooted : t.Rooted e) : t'.Rooted e := by
  obtain ⟨a, ha, hnames⟩ := hrooted
  exact ⟨a, h.answers ha, hnames⟩

end

variable {t : Routes}

lemma Sound.rooted_of_known (h : Sound t) {e : Entry} {source : Source}
    (hknown : t.Known source) (hgives : source.Gives e) : t.Rooted e := by
  cases source with
  | answer a => exact ⟨a, hknown, hgives⟩
  | entry s =>
    obtain ⟨source', hs⟩ := hknown
    obtain ⟨-, -, a, ha, hname, hport, haddr⟩ := h.log s source' hs
    obtain ⟨-, hname', hport', haddr'⟩ := hgives
    exact ⟨a, ha, hname.trans hname', hport.trans hport', haddr' ▸ haddr⟩

lemma Sound.new : Sound new where
  memo worker slot addr hholds _ := (DnsMemo.not_holds_empty slot hholds).elim
  session s e h _ := by
    rw [show Routes.new.sessions.lookup s = none from lookup_empty s] at h
    cases h
  pins slot hslot pin hpin := by
    rw [eq_of_mem_replicate hslot] at hpin
    cases hpin
  pin pin h := by cases h
  carried c hc := (not_mem_nil hc).elim
  log e source h := (not_mem_nil h).elim
  returned r hr := (not_mem_nil hr).elim

namespace Sound

variable (h : Sound t)
include h

lemma passTime (ms : Nat) : Sound (t.passTime ms) :=
  ⟨h.memo, h.session, h.pins, h.pin, h.carried, h.log, h.returned⟩

lemma bumpNegEpoch : Sound { t with negEpoch := t.negEpoch + 1 } :=
  ⟨h.memo, h.session, h.pins, h.pin, h.carried, h.log, h.returned⟩

/-- What is kept is still noted after more notes. -/
lemma of_extends {t' : Routes} (hext : Extends t t') (hmemos : t'.memos = t.memos)
    (hsessions : t'.sessions = t.sessions) (hpins : t'.pins = t.pins) (hpin : t'.pin = t.pin)
    (hcarried : t'.carried = t.carried) (hreturned : t'.returned = t.returned)
    (hlog : ∀ e source, (e, source) ∈ t'.log →
      t'.Known source ∧ source.Gives e ∧ t'.Rooted e) : Sound t' where
  memo worker slot addr hholds haddr := by
    rw [Routes.memo, hmemos] at hholds
    obtain ⟨name, port, hkey, hlogged⟩ := h.memo worker slot addr hholds haddr
    exact ⟨name, port, hkey, hext.logged hlogged⟩
  session s e hs hlive := hext.logged (h.session s e (hsessions ▸ hs) hlive)
  pins slot hslot pin hp := hext.logged (h.pins slot (hpins ▸ hslot) pin hp)
  pin pin hp := hext.logged (h.pin pin (hpin ▸ hp))
  carried c hc := by
    obtain ⟨hknown, hgives⟩ := h.carried c (hcarried ▸ hc)
    exact ⟨hext.known hknown, hgives⟩
  log := hlog
  returned r hr := by
    obtain ⟨e, hlogged, hserves⟩ := h.returned r (hreturned ▸ hr)
    exact ⟨e, hext.logged hlogged, hserves⟩

lemma note {e : Entry} {source : Source} (hknown : t.Known source) (hgives : source.Gives e) :
    Sound (t.note e source) := by
  have hext : Extends t (t.note e source) := ⟨subset_cons_self .., List.Subset.refl _⟩
  refine h.of_extends hext rfl rfl rfl rfl rfl rfl ?_
  intro e' source' hmem
  rcases mem_cons.mp hmem with heq | hold
  · cases heq
    exact ⟨hext.known hknown, hgives, hext.rooted (h.rooted_of_known hknown hgives)⟩
  · obtain ⟨hknown', hgives', hrooted⟩ := h.log e' source' hold
    exact ⟨hext.known hknown', hgives', hext.rooted hrooted⟩

lemma answered (a : Answer) : Sound { t with answers := a :: t.answers } := by
  have hext : Extends t { t with answers := a :: t.answers } :=
    ⟨List.Subset.refl _, subset_cons_self ..⟩
  refine h.of_extends hext rfl rfl rfl rfl rfl rfl ?_
  intro e source hmem
  obtain ⟨hknown, hgives, hrooted⟩ := h.log e source hmem
  exact ⟨hext.known hknown, hgives, hext.rooted hrooted⟩

lemma putMemo {worker : Nat} {memo : DnsMemo}
    (hmemo : ∀ slot addr, memo.Holds slot → slot.addr = some addr →
      ∃ name port, slot.key = memoKey name port ∧
        t.Logged ⟨.memo worker, name, port, addr, slot.expires⟩) :
    Sound (t.putMemo worker memo) := by
  refine ⟨?_, h.session, h.pins, h.pin, h.carried, h.log, h.returned⟩
  intro worker' slot addr hholds haddr
  by_cases hw : worker' = worker
  · subst hw
    rw [Routes.memo, Routes.putMemo, lookup_insert, getD_some] at hholds
    exact hmemo slot addr hholds haddr
  · rw [Routes.memo, Routes.putMemo, lookup_insert_ne hw] at hholds
    exact h.memo worker' slot addr hholds haddr

lemma withSessions {ss : SessTable}
    (hss : ∀ s e, ss.lookup s = some e → 0 < e.dest.expires → t.Logged (e.dest.entry s)) :
    Sound { t with sessions := ss } :=
  ⟨h.memo, hss, h.pins, h.pin, h.carried, h.log, h.returned⟩

lemma withPins {pins : PinCache}
    (hpins : ∀ slot ∈ pins, ∀ pin, slot.pin = some pin → t.Logged pin.entry) :
    Sound { t with pins := pins } :=
  ⟨h.memo, h.session, hpins, h.pin, h.carried, h.log, h.returned⟩

lemma withPin {pin : Option ConnPin} (hpin : ∀ p, pin = some p → t.Logged p.entry) :
    Sound { t with pin := pin } :=
  ⟨h.memo, h.session, h.pins, hpin, h.carried, h.log, h.returned⟩

lemma carry {cs : List Carried} (hcs : ∀ c ∈ cs, t.Known c.source ∧
    ∀ nowMs, c.source.Gives (c.entryAt (.session c.sess) nowMs)) : Sound (t.carry cs) := by
  refine ⟨h.memo, h.session, h.pins, h.pin, ?_, h.log, h.returned⟩
  intro c hc
  rcases mem_append.mp hc with hnew | hold
  · exact hcs c hnew
  · exact h.carried c hold

lemma give {worker : Nat} {s : UInt32} {host : String} {port : UInt16}
    {dst : Option SocketAddr} (hdst : ∀ d, dst = some d →
      ∃ e, t.Logged e ∧ e.Serves ⟨worker, s, host, port, d, t.nowMs⟩) :
    Sound (t.give worker s host port dst) := by
  cases dst with
  | none => exact h
  | some d =>
    refine ⟨h.memo, h.session, h.pins, h.pin, h.carried, h.log, ?_⟩
    intro r hr
    rcases mem_cons.mp hr with rfl | hold
    · exact hdst d rfl
    · exact h.returned r hold

end Sound

variable {host : String} {nowMs worker : Nat} {port : UInt16} {s : UInt32} {tier : Tier}
  {pin : ConnPin} {c : Carried}

lemma sessDestLookupTtl_spec {ss : SessTable} {life : Nat} {dst : SocketAddr}
    (h : ss.sessDestLookupTtl nowMs s host port = some (dst, life)) :
    ∃ e, ss.lookup s = some e ∧ e.dest = ⟨host, port, dst, nowMs + life⟩ ∧ 0 < life := by
  obtain ⟨e, he, h⟩ := bind_eq_some_iff.mp h
  obtain ⟨addr, haddr, h⟩ := bind_eq_some_iff.mp h
  unfold DestMemo.get at haddr
  split at haddr
  · rename_i hfor
    cases haddr
    cases h
    simp only [Bool.and_eq_true, decide_eq_true_eq] at hfor
    obtain ⟨⟨hlive, hport⟩, hhost⟩ := hfor
    refine ⟨e, he, ?_, by omega⟩
    obtain ⟨⟨host', port', addr', expires⟩, flows⟩ := e
    dsimp only at hlive hport hhost ⊢
    rw [hport, hhost, Nat.add_sub_of_le hlive.le]
  · cases haddr

section

variable (h : Sound t) {worker : Nat} {unreachable : SocketAddr → Bool} {s : UInt32}
  {host : String} {port : UInt16} {dst : SocketAddr} {life : Nat}
include h

lemma Sound.session_read (hread : t.sessions.sessDestLookupTtl t.nowMs s host port =
    some (dst, life)) : 0 < life ∧ t.Logged (t.readEntry (.session s) host port dst life) := by
  obtain ⟨e, he, hdest, hlife⟩ := sessDestLookupTtl_spec hread
  have hlogged := h.session s e he (by rw [hdest]; exact Nat.lt_add_left _ hlife)
  rw [hdest] at hlogged
  exact ⟨hlife, hlogged⟩

lemma Sound.memo_read (hread : (t.knowledge worker unreachable).memo host port =
    (.addr dst, life)) : 0 < life ∧ t.Logged (t.readEntry (.memo worker) host port dst life) := by
  obtain ⟨slot, hholds, hkey, haddr, hlife, hexpires⟩ := DnsMemo.lookupCachedFastWithTtl_spec hread
  obtain ⟨name, port', hkey', hlogged⟩ := h.memo worker slot dst hholds haddr
  obtain ⟨rfl, rfl⟩ := memoKey_inj (hkey'.symm.trans hkey)
  rw [hexpires] at hlogged
  exact ⟨hlife, hlogged⟩

variable {allowPrivate : Bool}

/-- A pin is armed from an entry that was written and is not over. -/
lemma Sound.adopt_read (hread : adopt (t.knowledge worker unreachable)
    allowPrivate t.sessions s host port = some (dst, life)) :
    0 < life ∧ t.Logged (t.readEntry (t.adoptTier worker s host port) host port dst life) := by
  unfold adopt at hread
  unfold adoptTier
  split at hread
  · rename_i dst' life' hsession
    rw [show t.sessions.sessDestLookupTtl t.nowMs s host port = _ from hsession,
      isSome_some, if_pos rfl]
    split at hread
    · cases hread
      exact h.session_read hsession
    · cases hread
  rename_i hsession
  rw [show t.sessions.sessDestLookupTtl t.nowMs s host port = _ from hsession,
    isSome_none, if_neg Bool.false_ne_true]
  split at hread
  · rename_i dst' life' hmemo
    split at hread
    · cases hread
      exact h.memo_read hmemo
    · cases hread
  · cases hread

lemma Sound.resolveFromSession_read
    (hread : resolveFromSession (t.knowledge worker unreachable) allowPrivate t.sessions s host
      port = .addr dst life) :
    0 < life ∧ t.Logged (t.readEntry (.session s) host port dst life) := by
  unfold resolveFromSession at hread
  split at hread
  · rename_i dst' life' hsession
    split at hread
    · cases hread
      exact h.session_read hsession
    · cases hread
  · cases hread

/-- The target of a datagram is resolved from an entry that was written and is not over. -/
lemma Sound.forward_read (hread : resolveForwardTarget
    (t.knowledge worker unreachable) allowPrivate t.sessions s host port = .addr dst life) :
    0 < life ∧ t.Logged (t.readEntry
      (forwardTier (t.knowledge worker unreachable) allowPrivate worker s host port) host port dst
      life) := by
  unfold resolveForwardTarget at hread
  unfold forwardTier
  split at hread
  · cases hread
  · rename_i dst' life' hmemo
    simp only [hmemo]
    split at hread
    · rename_i husable
      cases hread
      rw [if_pos husable]
      exact h.memo_read hmemo
    · rename_i husable
      rw [if_neg husable]
      exact h.resolveFromSession_read hread
  · rename_i hmemo
    simp only [hmemo]
    exact h.resolveFromSession_read hread

end

lemma readEntry_serves {dst : SocketAddr} {life : Nat} (hlife : 0 < life)
    (htier : tier.Serves ⟨worker, s, host, port, dst, t.nowMs⟩) :
    (t.readEntry tier host port dst life).Serves ⟨worker, s, host, port, dst, t.nowMs⟩ :=
  ⟨htier, rfl, rfl, rfl, Nat.lt_add_of_pos_right hlife⟩

lemma pinEntry_serves (hsess : pin.sess = s) (hfor : pinIsFor pin host port = true)
    (hlive : nowMs < pin.expires) : pin.entry.Serves ⟨worker, s, host, port, pin.addr, nowMs⟩ := by
  rw [pinIsFor, Bool.and_eq_true, decide_eq_true_eq, decide_eq_true_eq] at hfor
  obtain ⟨hport, hhost⟩ := hfor
  exact ⟨hsess, congrArg dnsName hhost, hport, rfl, hlive⟩

def IsMemo (tier : Tier) (worker : Nat) (s : UInt32) : Prop :=
  tier = .memo worker ∨ tier = .session s

lemma IsMemo.serves {r : Returned} (h : IsMemo tier r.worker r.sess) : tier.Serves r := by
  obtain rfl | rfl := h <;> rfl

lemma IsMemo.feeds (h : IsMemo tier worker s) : tier.Feeds (.session s) := by
  obtain rfl | rfl := h
  · trivial
  · rfl

section

variable (k : Knowledge) (allowPrivate : Bool) (worker : Nat) (s : UInt32) (host : String)
  (port : UInt16)

lemma adoptTier_isMemo : IsMemo (t.adoptTier worker s host port) worker s := by
  unfold adoptTier
  split
  · exact .inr rfl
  · exact .inl rfl

lemma forwardTier_isMemo : IsMemo (forwardTier k allowPrivate worker s host port) worker s := by
  unfold forwardTier
  split
  · split
    · exact .inl rfl
    · exact .inr rfl
  · exact .inr rfl

end

lemma answers_materializeCached (addrs : List SocketAddr) (life : Nat) :
    (t.materializeCached worker host port addrs life).answers =
      t.answerOf host port addrs life :: t.answers := by
  cases addrs with
  | nil => rfl
  | cons first rest =>
    unfold materializeCached
    dsimp only [putMemo]
    split <;> rfl

section

variable (h : Sound t) (allowPrivate : Bool) (worker : Nat) (unreachable : SocketAddr → Bool)
  (s : UInt32) (host : String) (port : UInt16)
include h

lemma Sound.materializeCached (addrs : List SocketAddr) (life : Nat) :
    Sound (t.materializeCached worker host port addrs life) := by
  have hanswered := h.answered (t.answerOf host port addrs life)
  cases addrs with
  | nil => exact hanswered
  | cons first rest =>
    unfold Routes.materializeCached
    dsimp only
    split
    · rename_i hlong
      apply hanswered.putMemo
      intro slot addr hholds haddr
      rcases hholds.of_memoPut with hold | ⟨hfits, -⟩
      · exact hanswered.memo worker slot addr hold haddr
      · exact (Nat.not_lt.mpr hfits hlong).elim
    let answer := t.answerOf host port (first :: rest) life
    have hnoted : Sound (Routes.note { t with answers := answer :: t.answers }
        ⟨.memo worker, dnsName host, port, first, answer.deadline⟩ (.answer answer)) :=
      hanswered.note mem_cons_self ⟨rfl, rfl, mem_cons_self⟩
    apply hnoted.putMemo
    intro slot addr hholds haddr
    rcases hholds.of_memoPut with hold | ⟨-, rfl⟩
    · exact hnoted.memo worker slot addr hold haddr
    · cases haddr
      exact ⟨dnsName host, port, rfl, _, mem_cons_self⟩

lemma Sound.deliver (addrs : List SocketAddr) (life delay : Nat) :
    Sound (t.deliver allowPrivate worker s host port addrs life delay) := by
  have hmaterialized := h.materializeCached worker host port addrs life
  apply (hmaterialized.passTime delay).carry
  intro c hc
  obtain ⟨addr, haddr, rfl⟩ := mem_map.mp hc
  constructor
  · show _ ∈ (t.materializeCached worker host port addrs life).answers
    rw [answers_materializeCached]
    exact mem_cons_self
  · intro nowMs
    exact ⟨rfl, rfl, mem_of_mem_filter haddr⟩

lemma Sound.refuse (key : Bytes) (expires epoch : Nat) :
    Sound (t.putMemo worker ((t.memo worker).memoPutWithEpoch key expires epoch t.negEpoch)) := by
  apply h.putMemo
  intro slot addr hholds haddr
  unfold DnsMemo.memoPutWithEpoch at hholds
  split at hholds
  · rcases hholds.of_memoPut with hold | ⟨-, rfl⟩
    · exact h.memo worker slot addr hold haddr
    · cases haddr
  · exact h.memo worker slot addr hholds haddr

lemma Sound.forward : Sound (t.forward allowPrivate worker unreachable s host port) := by
  unfold Routes.forward
  dsimp only
  split
  · rename_i dst life hread
    obtain ⟨hlife, hlogged⟩ := h.forward_read hread
    have htier := forwardTier_isMemo (t.knowledge worker unreachable) allowPrivate worker s host
      port
    have hgive : Sound (t.give worker s host port (some dst)) := by
      apply h.give
      rintro d ⟨⟩
      exact ⟨_, hlogged, readEntry_serves hlife htier.serves⟩
    apply hgive.carry
    intro c hc
    obtain rfl := mem_singleton.mp hc
    exact ⟨hlogged, fun _ => ⟨htier.feeds, rfl, rfl, rfl⟩⟩
  · exact h

end

/-- A session's memo after a store is the old one, or the one written. -/
lemma lookup_sessDestStore {ss : SessTable} {s' : UInt32} {d : Named} {e : SessEntry}
    (h : (ss.sessDestStore nowMs s d.host d.port d.addr d.life).lookup s' = some e) :
    ss.lookup s' = some e ∨ s' = s ∧ ss.writesDest nowMs s d = true ∧
      e.dest = ⟨d.host, d.port, d.addr, nowMs + pinLifeMs d.life⟩ := by
  unfold SessTable.sessDestStore at h
  split at h
  · exact .inl h
  rename_i hfits
  split at h
  · exact .inl h
  rename_i old hold
  split at h
  · exact .inl h
  rename_i hstale
  rcases Map.lookup_insert_cases h with ⟨rfl, rfl⟩ | ⟨-, h⟩
  · refine .inr ⟨rfl, ?_, rfl⟩
    rw [SessTable.writesDest, hold, decide_eq_true (Nat.le_of_not_lt hfits),
      any_some, Bool.true_and, Bool.not_eq_true']
    exact Bool.eq_false_iff.mpr hstale
  · exact .inl h

lemma Sound.storeDest (h : Sound t) (hc : c ∈ t.carried) : Sound (t.storeDest c) := by
  obtain ⟨hknown, hgives⟩ := h.carried c hc
  unfold Routes.storeDest
  dsimp only
  split
  · have hnoted := h.note hknown (hgives t.nowMs)
    apply hnoted.withSessions
    intro s e hs hlive
    rcases lookup_sessDestStore hs with hold | ⟨rfl, -, hdest⟩
    · exact hnoted.session s e hold hlive
    · rw [hdest]
      exact ⟨_, mem_cons_self⟩
  · rename_i hskip
    apply h.withSessions
    intro s e hs hlive
    rcases lookup_sessDestStore hs with hold | ⟨-, hwrites, -⟩
    · exact h.session s e hold hlive
    · exact (hskip hwrites).elim

lemma Sound.putSess (h : Sound t) {s : UInt32} {e : SessEntry}
    (he : 0 < e.dest.expires → t.Logged (e.dest.entry s)) :
    Sound { t with sessions := t.sessions.insert s e } := by
  apply h.withSessions
  intro s' e' hs hlive
  rcases Map.lookup_insert_cases hs with ⟨rfl, rfl⟩ | ⟨-, hs⟩
  · exact he hlive
  · exact h.session s' e' hs hlive

/-- A session made without an address to remember has none. -/
lemma Sound.createSess_none (h : Sound t) (s : UInt32) : Sound (t.createSess s none) := by
  unfold createSess
  split
  · exact h
  · exact h.putSess fun hlive => (Nat.lt_irrefl 0 hlive).elim

lemma Sound.createSess_some (h : Sound t) (hc : c ∈ t.carried) :
    Sound (t.createSess c.sess (some c)) := by
  obtain ⟨hknown, hgives⟩ := h.carried c hc
  unfold createSess
  split
  · exact h
  dsimp only [map_some]
  split
  · rename_i hfits
    refine (h.note hknown (hgives t.nowMs)).putSess fun _ => ?_
    dsimp only [ServerConn.freshEntry]
    rw [if_neg (Nat.not_lt.mpr hfits)]
    exact ⟨_, mem_cons_self⟩
  · rename_i hlong
    refine h.putSess fun hlive => ?_
    dsimp only [ServerConn.freshEntry] at hlive
    rw [if_pos (Nat.lt_of_not_le hlong)] at hlive
    exact (Nat.lt_irrefl 0 hlive).elim

lemma Sound.pinStore (h : Sound t) (hpin : t.Logged pin.entry) :
    Sound { t with pins := t.pins.pinStore pin } := by
  apply h.withPins
  intro slot hslot pin' hpin'
  rcases mem_or_eq_of_mem_set hslot with hold | rfl
  · exact h.pins slot hold pin' hpin'
  · cases hpin'
    exact hpin

lemma Sound.pinCache (h : Sound t) (hc : c ∈ t.carried) : Sound (t.pinCache c) := by
  obtain ⟨hknown, hgives⟩ := h.carried c hc
  unfold Routes.pinCache
  split
  · exact h
  rename_i e hsource
  dsimp only [PinCache.pinCache, pinArm]
  split
  · rename_i hfits
    rw [if_neg (Nat.not_lt.mpr hfits)]
    rw [hsource] at hknown hgives
    obtain ⟨hfeeds, hrest⟩ := hgives t.nowMs
    have hnoted := h.note (e := c.entryAt (.pin c.sess) t.nowMs) hknown ⟨hfeeds.pin, hrest⟩
    rw [hsource]
    exact hnoted.pinStore ⟨_, mem_cons_self⟩
  · rename_i hlong
    rw [if_pos (Nat.lt_of_not_le hlong)]
    exact h

lemma Sound.pinClear (h : Sound t) (s : UInt32) : Sound { t with pins := t.pins.pinClear s } := by
  apply h.withPins
  intro slot hslot pin hpin
  unfold PinCache.pinClear at hslot
  split at hslot
  · rcases mem_or_eq_of_mem_set hslot with hold | rfl
    · exact h.pins slot hold pin hpin
    · cases hpin
  · exact h.pins slot hslot pin hpin

lemma extends_note (e : Entry) (source : Source) : Extends t (t.note e source) :=
  ⟨subset_cons_self .., List.Subset.refl _⟩

section

variable (h : Sound t) (allowPrivate : Bool) (worker : Nat) (s : UInt32) (host : String)
  (port : UInt16)
include h

lemma Sound.adopt_serves {dst : SocketAddr} {life : Nat}
    (hadopt : adopt (t.knowledge worker fun _ => false) allowPrivate t.sessions s host port =
      some (dst, life)) :
    t.Logged (t.readEntry (t.adoptTier worker s host port) host port dst life) ∧
      (t.readEntry (t.adoptTier worker s host port) host port dst life).Serves
        ⟨worker, s, host, port, dst, t.nowMs⟩ := by
  obtain ⟨hlife, hread⟩ := h.adopt_read hadopt
  exact ⟨hread, readEntry_serves hlife (adoptTier_isMemo worker s host port).serves⟩

lemma Sound.throughPin (pinnedSess : UInt32) (delay : Nat) :
    Sound (t.throughPin allowPrivate worker pinnedSess s host port delay) := by
  apply Sound.passTime
  unfold resolvePinAt
  cases hhit : pinHit (t.knowledge worker fun _ => false) t.pin pinnedSess s host port with
  | some hit =>
    obtain ⟨hpin, hfor⟩ := filter_eq_some_iff.mp hhit
    simp only [Bool.and_eq_true, decide_eq_true_eq] at hfor
    obtain ⟨⟨⟨-, hsess⟩, hfor⟩, hlive⟩ := hfor
    apply h.give
    rintro d ⟨⟩
    exact ⟨hit.entry, h.pin hit hpin, pinEntry_serves hsess hfor hlive⟩
  | none =>
    rw [isSome_none, if_neg Bool.false_ne_true]
    rcases hadopt : adopt (t.knowledge worker fun _ => false) allowPrivate t.sessions s host port
      with _ | ⟨dst, life⟩
    · exact h
    obtain ⟨hread, hserves⟩ := h.adopt_serves allowPrivate worker s host port hadopt
    dsimp only [noteArm, pinArm]
    split
    · apply h.give
      rintro d ⟨⟩
      exact ⟨_, hread, hserves⟩
    -- The pin is noted as a copy of what was read in the memo.
    refine ((h.note ?_ ?_).withPin ?_).give ?_
    · exact hread
    · exact ⟨(adoptTier_isMemo worker s host port).feeds.pin, rfl, rfl, rfl⟩
    · rintro p ⟨⟩
      exact ⟨_, mem_cons_self⟩
    · rintro d ⟨⟩
      exact ⟨_, (extends_note _ _).logged hread, hserves⟩

lemma Sound.fast (delay : Nat) : Sound (t.fast allowPrivate worker s host port delay) := by
  apply Sound.passTime
  unfold resolveFastAt
  cases hget : t.pins.pinGet t.nowMs s host port with
  | some dst =>
    rw [show t.pins.pinGet (t.knowledge worker fun _ => false).nowMs s host port = _ from hget]
    obtain ⟨slot, hslot, hget⟩ := bind_eq_some_iff.mp hget
    obtain ⟨pin, hpin, hget⟩ := bind_eq_some_iff.mp hget
    split at hget
    · rename_i hfor
      cases hget
      simp only [Bool.and_eq_true, decide_eq_true_eq] at hfor
      obtain ⟨⟨hsess, hfor⟩, hlive⟩ := hfor
      apply h.give
      rintro d ⟨⟩
      exact ⟨pin.entry, h.pins slot (mem_of_find?_eq_some hslot) pin hpin,
        pinEntry_serves hsess hfor hlive⟩
    · cases hget
  | none =>
    rw [show t.pins.pinGet (t.knowledge worker fun _ => false).nowMs s host port = _ from hget,
      isSome_none, if_neg Bool.false_ne_true]
    dsimp only [resolvePinAt, pinHit, filter_none]
    rcases hadopt : adopt (t.knowledge worker fun _ => false) allowPrivate t.sessions s host port
      with _ | ⟨dst, life⟩
    · exact h
    obtain ⟨hread, hserves⟩ := h.adopt_serves allowPrivate worker s host port hadopt
    dsimp only [noteArm, pinArm]
    split
    · apply h.give
      rintro d ⟨⟩
      exact ⟨_, hread, hserves⟩
    refine ((h.note ?_ ?_).pinStore ?_).give ?_
    · exact hread
    · exact ⟨(adoptTier_isMemo worker s host port).feeds.pin, rfl, rfl, rfl⟩
    · exact ⟨_, mem_cons_self⟩
    · rintro d ⟨⟩
      exact ⟨_, (extends_note _ _).logged hread, hserves⟩

end

lemma Sound.sessDestLookup (h : Sound t) (worker : Nat) (s : UInt32) (host : String)
    (port : UInt16) : Sound (t.give worker s host port
      ((t.sessions.sessDestLookupTtl t.nowMs s host port).map Prod.fst)) := by
  apply h.give
  intro d hd
  obtain ⟨⟨dst, life⟩, hread, rfl⟩ := map_eq_some_iff.mp hd
  obtain ⟨hlife, hlogged⟩ := h.session_read hread
  exact ⟨_, hlogged, readEntry_serves hlife rfl⟩

lemma Sound.closeSess (h : Sound t) (s : UInt32) :
    Sound { t with sessions := t.sessions.erase s } := by
  apply h.withSessions
  intro s' e hs hlive
  exact h.session s' e (Map.lookup_erase_iff.mp hs).2 hlive

/-- What holds of a state and of all it may become holds after the choice. -/
lemma elim_kept {P : Routes → Prop} {found : Option Carried} {f : Carried → Routes} (h : P t)
    (hfound : ∀ c, found = some c → P (f c)) : P (found.elim t f) := by
  cases found with
  | none => exact h
  | some c => exact hfound c rfl

/-- Every event keeps the notes right. -/
lemma Sound.next (allowPrivate : Bool) (t : Routes) (ev : RouteEvent) (h : Sound t) :
    Sound (t.next allowPrivate ev) := by
  cases ev with
  | tick ms => exact h.passTime ms
  | resolved worker host port addrs life => exact h.materializeCached worker host port addrs life
  | delivered worker s host port addrs life delay =>
    exact h.deliver allowPrivate worker s host port addrs life delay
  | refused worker host port life epoch => exact h.refuse worker _ _ epoch
  | bumpNegEpoch => exact h.bumpNegEpoch
  | forwardTarget worker unreachable s host port =>
    exact h.forward allowPrivate worker unreachable s host port
  | storeDest i => exact elim_kept h fun c hc => h.storeDest (mem_of_getElem? hc)
  | createSess s => exact h.createSess_none s
  | createSessFor i => exact elim_kept h fun c hc => h.createSess_some (mem_of_getElem? hc)
  | pinCache i => exact elim_kept h fun c hc => h.pinCache (mem_of_getElem? hc)
  | resolveFast worker s host port delay => exact h.fast allowPrivate worker s host port delay
  | resolvePin worker pinnedSess s host port delay =>
    exact h.throughPin allowPrivate worker s host port pinnedSess delay
  | sessDestLookup worker s host port => exact h.sessDestLookup worker s host port
  | closeSess s => exact h.closeSess s
  | pinClear s => exact h.pinClear s
  | dropPin =>
    apply h.withPin
    rintro p ⟨⟩
  | dropCarried i =>
    exact ⟨h.memo, h.session, h.pins, h.pin,
      fun c hc => h.carried c (mem_of_mem_eraseIdx hc), h.log, h.returned⟩

end Routes

end MyQuic2
