import MyQuic2.Server.RoutingSound

/-!
# Copies and their deadlines

A store is handed a remaining life and counts it from the clock it reads itself. The copy
ends with its source where both clocks agree. A task that finds nothing left of its
answer takes the life of a new one instead.
-/

namespace MyQuic2

open List Routes

namespace Routes

variable {t : Routes}

/-- The clock has not moved since the life was read, but for what the life has beyond that of a
pin. -/
def Fresh (readMs life nowMs : Nat) : Prop := nowMs - readMs ≤ life - destPinTtlMs

instance (readMs life nowMs : Nat) : Decidable (Fresh readMs life nowMs) :=
  inferInstanceAs (Decidable (_ ≤ _))

/-- Lives are stored on the tick they are read on, and a task finds its answer in the memo. -/
def Timely (allowPrivate : Bool) (t : Routes) : RouteEvent → Prop
  | .delivered _ _ _ _ _ life delay => delay < life
  | .storeDest i | .createSessFor i | .pinCache i =>
    ∀ c ∈ t.carried[i]?, Fresh c.readMs c.dest.life t.nowMs
  | .resolveFast worker s host port delay | .resolvePin worker _ s host port delay =>
    ∀ found ∈ adopt (t.knowledge worker fun _ => false) allowPrivate t.sessions s host port,
      Fresh t.nowMs found.2 (t.nowMs + delay)
  | _ => True

instance (allowPrivate : Bool) (t : Routes) (ev : RouteEvent) :
    Decidable (Timely allowPrivate t ev) := by
  cases ev <;> unfold Timely <;> infer_instance

/-- A life that is stored in time ends with its source. -/
lemma Fresh.le {readMs life nowMs deadline : Nat} (h : Fresh readMs life nowMs)
    (hsource : readMs + life ≤ deadline) : nowMs + pinLifeMs life ≤ deadline := by
  unfold Fresh at h
  unfold pinLifeMs
  omega

/-- No copy ends after its source. -/
structure Bounded (t : Routes) : Prop where
  carried : ∀ c ∈ t.carried, c.Fits → c.readMs + c.dest.life ≤ c.source.deadline
  log : ∀ e source, (e, source) ∈ t.log → e.deadline ≤ source.deadline

namespace Bounded

variable (h : Bounded t)
include h

lemma passTime (ms : Nat) : Bounded (t.passTime ms) := ⟨h.carried, h.log⟩

lemma note {e : Entry} {source : Source} (hle : e.deadline ≤ source.deadline) :
    Bounded (t.note e source) := by
  refine ⟨h.carried, ?_⟩
  intro e' source' hmem
  rcases mem_cons.mp hmem with heq | hold
  · cases heq
    exact hle
  · exact h.log e' source' hold

lemma carry {cs : List Carried}
    (hcs : ∀ c ∈ cs, c.Fits → c.readMs + c.dest.life ≤ c.source.deadline) :
    Bounded (t.carry cs) := by
  refine ⟨?_, h.log⟩
  intro c hc
  rcases mem_append.mp hc with hnew | hold
  · exact hcs c hnew
  · exact h.carried c hold

lemma give (worker : Nat) (s : UInt32) (host : String) (port : UInt16)
    (dst : Option SocketAddr) : Bounded (t.give worker s host port dst) := by
  cases dst with
  | none => exact h
  | some d => exact ⟨h.carried, h.log⟩

lemma materializeCached (worker : Nat) (host : String) (port : UInt16) (addrs : List SocketAddr)
    (life : Nat) : Bounded (t.materializeCached worker host port addrs life) := by
  have hanswered : Bounded { t with answers := t.answerOf host port addrs life :: t.answers } :=
    ⟨h.carried, h.log⟩
  cases addrs with
  | nil => exact hanswered
  | cons first rest =>
    unfold Routes.materializeCached
    dsimp only [putMemo]
    split
    · exact ⟨h.carried, h.log⟩
    let answer := t.answerOf host port (first :: rest) life
    have hnoted : Bounded (Routes.note { t with answers := answer :: t.answers }
        ⟨.memo worker, dnsName host, port, first, answer.deadline⟩ (.answer answer)) :=
      hanswered.note (Nat.le_refl _)
    exact ⟨hnoted.carried, hnoted.log⟩

end Bounded

variable {worker : Nat}

lemma nowMs_materializeCached (host : String) (port : UInt16) (addrs : List SocketAddr)
    (life : Nat) : (t.materializeCached worker host port addrs life).nowMs = t.nowMs := by
  cases addrs with
  | nil => rfl
  | cons first rest =>
    unfold materializeCached
    dsimp only [putMemo]
    split <;> rfl

lemma memo_passTime (ms : Nat) : (t.passTime ms).memo worker = t.memo worker := rfl

lemma memo_materializeCached (host : String) (port : UInt16) (first : SocketAddr)
    (rest : List SocketAddr) (life : Nat) :
    (t.materializeCached worker host port (first :: rest) life).memo worker =
      (t.memo worker).memoPut (dnsKey host port) (some first) (t.nowMs + life) t.negEpoch := by
  unfold memo materializeCached putMemo
  rw [AList.lookup_insert, Option.getD_some]
  rfl

section

variable (h : Bounded t) (allowPrivate : Bool) (worker : Nat) (unreachable : SocketAddr → Bool)
  (s : UInt32) (host : String) (port : UInt16)
include h

/-- A task that reads the life of its answer in time carries what is left of it. -/
lemma Bounded.deliver (addrs : List SocketAddr) {life delay : Nat} (htimely : delay < life) :
    Bounded (t.deliver allowPrivate worker s host port addrs life delay) := by
  have hmaterialized := h.materializeCached worker host port addrs life
  apply (hmaterialized.passTime delay).carry
  intro c hc hfits
  obtain ⟨addr, haddr, rfl⟩ := mem_map.mp hc
  cases addrs with
  | nil => exact (not_mem_nil haddr).elim
  | cons first rest =>
    have hnow : ((t.materializeCached worker host port (first :: rest) life).passTime
        delay).nowMs = t.nowMs + delay := by
      rw [Routes.passTime, nowMs_materializeCached]
    have hlive : t.nowMs + delay < t.nowMs + life := by omega
    dsimp only [Source.deadline, answerOf]
    rw [remainingMs, hnow, memo_passTime, memo_materializeCached,
      DnsMemo.lookupCachedFastWithTtl_memoPut hfits _ _ _ hlive]
    rw [if_neg (by omega)]
    omega

lemma Bounded.forward : Bounded (t.forward allowPrivate worker unreachable s host port) := by
  unfold Routes.forward
  dsimp only
  split
  · apply (h.give worker s host port _).carry
    intro c hc hfits
    obtain rfl := mem_singleton.mp hc
    exact Nat.le_refl _
  · exact h

end

section

variable (h : Bounded t) {c : Carried} (hc : c ∈ t.carried)
  (hfresh : Fresh c.readMs c.dest.life t.nowMs)
include h hc hfresh

/-- A carried address that is stored in time ends with its source. -/
lemma Bounded.note_carried (hfits : c.Fits) (tier : Tier) :
    Bounded (t.note (c.entryAt tier t.nowMs) c.source) :=
  h.note (hfresh.le (h.carried c hc hfits))

lemma Bounded.storeDest : Bounded (t.storeDest c) := by
  unfold Routes.storeDest
  dsimp only
  split
  · rename_i hwrites
    have hfits : c.Fits := of_decide_eq_true (Bool.and_eq_true_iff.mp hwrites).1
    have hnoted := h.note_carried hc hfresh hfits (.session c.sess)
    exact ⟨hnoted.carried, hnoted.log⟩
  · exact ⟨h.carried, h.log⟩

lemma Bounded.createSess_some : Bounded (t.createSess c.sess (some c)) := by
  unfold createSess
  dsimp only
  split
  · exact h
  split
  · rename_i hfits
    have hnoted := h.note_carried hc hfresh hfits (.session c.sess)
    exact ⟨hnoted.carried, hnoted.log⟩
  · exact ⟨h.carried, h.log⟩

lemma Bounded.pinCache : Bounded (t.pinCache c) := by
  unfold Routes.pinCache
  split
  · exact h
  split
  · rename_i hfits
    have hnoted := h.note_carried hc hfresh hfits (.pin c.sess)
    exact ⟨hnoted.carried, hnoted.log⟩
  · exact ⟨h.carried, h.log⟩

end

lemma Bounded.createSess_none (h : Bounded t) (s : UInt32) : Bounded (t.createSess s none) := by
  unfold createSess
  split
  · exact h
  · exact ⟨h.carried, h.log⟩

/-- A pin that is armed in time ends with the memo it was armed from. -/
lemma Bounded.noteArm (h : Bounded t) (s : UInt32) (host : String) (port : UInt16)
    {armMs : Nat} (tier : Tier) {adopted : Option (SocketAddr × Nat)}
    (hfresh : ∀ found ∈ adopted, Fresh t.nowMs found.2 armMs) :
    Bounded (t.noteArm s host port armMs tier adopted) := by
  rcases adopted with _ | ⟨dst, life⟩
  · exact h
  unfold Routes.noteArm
  dsimp only
  split
  · exact h
  · exact h.note ((hfresh (dst, life) rfl).le (Nat.le_refl _))

lemma Bounded.ite {c : Bool} {t' : Routes} (h : Bounded t) (h' : Bounded t') :
    Bounded (if c then t else t') := by
  cases c
  · exact h'
  · exact h

/-- Every event that comes in time keeps the deadlines. -/
lemma Bounded.next (allowPrivate : Bool) (t : Routes) (ev : RouteEvent) (h : Bounded t)
    (htimely : Timely allowPrivate t ev) : Bounded (t.next allowPrivate ev) := by
  cases ev with
  | resolved worker host port addrs life => exact h.materializeCached worker host port addrs life
  | delivered worker s host port addrs life delay =>
    exact h.deliver allowPrivate worker s host port addrs htimely
  | forwardTarget worker unreachable s host port =>
    exact h.forward allowPrivate worker unreachable s host port
  | storeDest i =>
    exact elim_kept h fun c hc => h.storeDest (mem_of_getElem? hc) (htimely c hc)
  | createSess s => exact h.createSess_none s
  | createSessFor i =>
    exact elim_kept h fun c hc => h.createSess_some (mem_of_getElem? hc) (htimely c hc)
  | pinCache i =>
    exact elim_kept h fun c hc => h.pinCache (mem_of_getElem? hc) (htimely c hc)
  | resolveFast worker s host port delay =>
    have hnoted := h.ite (c := (t.pins.pinGet t.nowMs s host port).isSome)
      (h.noteArm s host port (t.adoptTier worker s host port) htimely)
    refine Bounded.passTime (Bounded.give ?_ worker s host port _) delay
    exact ⟨hnoted.carried, hnoted.log⟩
  | resolvePin worker pinnedSess s host port delay =>
    have hnoted := h.ite
      (c := (pinHit (t.knowledge worker fun _ => false) t.pin pinnedSess s host port).isSome)
      (h.noteArm s host port (t.adoptTier worker s host port) htimely)
    refine Bounded.passTime (Bounded.give ?_ worker s host port _) delay
    exact ⟨hnoted.carried, hnoted.log⟩
  | sessDestLookup worker s host port => exact h.give worker s host port _
  | dropCarried i => exact ⟨fun c hc => h.carried c (mem_of_mem_eraseIdx hc), h.log⟩
  | _ => exact ⟨h.carried, h.log⟩

variable (allowPrivate : Bool)

/-- After any run, whatever was returned was written for that worker or session, name and port and
was not over, and every entry says what its source says and leads back to a resolution. -/
lemma sound_after (es : List RouteEvent) : Sound (after (next allowPrivate) .new es) :=
  after_of_kept (Sound.next allowPrivate) .new es

/-- Lookups return what was written for them and is not over, every entry comes from a resolution
of its name, and none outlives its source, as long as lives are stored on the tick they are read
on and tasks find their answers in the memo. -/
theorem lookups_follow_resolutions (es : List RouteEvent)
    (htimely : Along (next allowPrivate) (Timely allowPrivate) .new es) :
    (∀ r ∈ (after (next allowPrivate) .new es).returned,
      ∃ e source, (e, source) ∈ (after (next allowPrivate) .new es).log ∧ e.Serves r) ∧
    ∀ e source, (e, source) ∈ (after (next allowPrivate) .new es).log →
      (after (next allowPrivate) .new es).Known source ∧ source.Gives e ∧
      (after (next allowPrivate) .new es).Rooted e ∧ e.deadline ≤ source.deadline := by
  have hsound := sound_after allowPrivate es
  have hnew : Bounded Routes.new :=
    ⟨fun c hc => (not_mem_nil hc).elim, fun e source hmem => (not_mem_nil hmem).elim⟩
  have hbounded := after_of_invariant (Bounded.next allowPrivate) hnew htimely
  constructor
  · intro r hr
    obtain ⟨e, ⟨source, hmem⟩, hserves⟩ := hsound.returned r hr
    exact ⟨e, source, hmem, hserves⟩
  · intro e source hmem
    obtain ⟨hknown, hgives, hrooted⟩ := hsound.log e source hmem
    exact ⟨hknown, hgives, hrooted, hbounded.log e source hmem⟩

/-- A name that is resolved, stored and pinned within one tick, and looked up later. -/
theorem lookups_follow_resolutions_later : let es : List RouteEvent :=
      [.createSess 7, .delivered 0 7 "A.test." 443 [.v4 ⟨0x01020304⟩ 443] 60000 0, .storeDest 0,
        .tick 1000, .resolveFast 0 7 "A.test." 443 0, .tick 28000, .resolveFast 1 7 "A.test." 443 0]
    Along (next false) (Timely false) .new es ∧
      (∀ r ∈ (after (next false) .new es).returned,
        ∃ e source, (e, source) ∈ (after (next false) .new es).log ∧ e.Serves r) ∧
      ∀ e source, (e, source) ∈ (after (next false) .new es).log →
        (after (next false) .new es).Known source ∧ source.Gives e ∧
        (after (next false) .new es).Rooted e ∧ e.deadline ≤ source.deadline := by
  intro es
  have htimely : Along (next false) (Timely false) .new es := by decide +kernel
  exact ⟨htimely, lookups_follow_resolutions false es htimely⟩

/-- A task whose answer has less than a millisecond left stores it for a full pin, and the session
sends to the address long after the answer is over. -/
theorem spent_answer_outlives : let es : List RouteEvent :=
      [.createSess 7, .delivered 0 7 "a.test" 443 [.v4 ⟨0x01020304⟩ 443] 0 0, .storeDest 0,
        .tick 29000, .sessDestLookup 0 7 "a.test" 443]
    let answer : Answer := ⟨dnsName "a.test", 443, [.v4 ⟨0x01020304⟩ 443], 0⟩
    let copy : Entry := ⟨.session 7, dnsName "a.test", 443, .v4 ⟨0x01020304⟩ 443, 30000⟩
    (copy, .answer answer) ∈ (after (next false) .new es).log ∧
      (after (next false) .new es).returned =
        [⟨0, 7, "a.test", 443, .v4 ⟨0x01020304⟩ 443, 29000⟩] := by
  decide +kernel

end Routes

end MyQuic2
