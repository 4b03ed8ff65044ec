import MyQuic2.Dns.Resolve

/-!
# Refusals that outlive their name's failure

A worker's memo of a refusal is good for one epoch of refusals. The epoch is raised whenever
a refusal is found and removed, so that as long as refusals stay in the shared cache for
their time, no memo of a name is left to answer once that has resolved.
-/

namespace MyQuic2

open DnsOp DnsPlace DnsShared

section

variable (p : DnsPool) (n : Bytes) (til epoch : Nat)

/-- A worker refuses a name until a time, by a memo of some epoch or with one about to be put. -/
def Claimed : Prop :=
  (∃ w slot port, (p.shared.memos w).Holds slot ∧ slot.key = memoKey n port ∧ slot.addr = none ∧
    slot.expires = til ∧ slot.negEpoch = epoch) ∨
  (∃ q : DnsQuery, q.name = n ∧ p.At (.refuse q til epoch)) ∨
  ∃ ttl, p.shared.loading n = some (.remember til epoch ttl)

def Loader.raising : Loader → Bool
  | raise _ => true
  | _ => false

/-- A refusal of the name is removed, and the epoch is about to be raised. -/
def Raising : Prop :=
  (∃ q k, q.name = n ∧ p.At (.raise q k)) ∨ (p.shared.loading n).any Loader.raising

/-- What stands behind a memo of the epoch. -/
def Covered : Prop :=
  (∃ ref, p.shared.negatives n = some ref ∧ til ≤ ref.leaves) ∨ Raising p n

end

/-- Claims are not newer than the epoch, and those on a name that count have a refusal behind
them. -/
structure Fenced (name : Bytes) (p : DnsPool) : Prop where
  past : ∀ n til epoch, Claimed p n til epoch → epoch ≤ p.shared.epoch
  sampled : ∀ q epoch, p.At (.checkRefusal q epoch) → epoch ≤ p.shared.epoch
  recording : ∀ n til epoch ttl, p.shared.loading n = some (.record til epoch ttl) →
    epoch ≤ p.shared.epoch ∧ til ≤ p.shared.now + dnsNegTtl
  kept : ∀ n ref, p.shared.negatives n = some ref →
    ref.expires ≤ ref.leaves ∧ ref.leaves ≤ p.shared.now + dnsNegTtl
  covered : ∀ til, Claimed p name til p.shared.epoch → p.shared.now < til → Covered p name til

variable {s s' : DnsShared} {place : DnsPlace} {n : Bytes} {t : Then DnsPlace DnsResult}
  {w til epoch ttl : Nat} {slot : MemoSlot} {q : DnsQuery} {ref : Refusal}

lemma holds_refuse (h : ((s.refuse q til epoch).memos w).Holds slot) :
    (s.memos w).Holds slot ∨ slot = .new (memoKey q.name q.port) none til epoch := by
  simp only [DnsShared.refuse, DnsMemo.memoPutWithEpoch, Function.update_apply] at h
  split at h
  · subst_vars
    split at h
    · exact h.of_memoPut.imp_right And.right
    · exact .inl h
  · exact .inl h

lemma holds_materialize {pos : Positive} (h : ((s.materialize q pos).memos w).Holds slot)
    (hneg : slot.addr = none) : (s.memos w).Holds slot := by
  unfold DnsShared.materialize at h
  split at h
  · exact h
  simp only [Function.update_apply] at h
  split at h
  · subst_vars
    refine h.of_memoPut.resolve_right ?_
    rintro ⟨-, rfl⟩
    simp [MemoSlot.new] at hneg
  · exact h

lemma memo_step (h : step s place = (s', t)) (hslot : (s'.memos w).Holds slot)
    (hneg : slot.addr = none) :
    (s.memos w).Holds slot ∨ ∃ q : DnsQuery, slot.key = memoKey q.name q.port ∧
      (place = .refuse q slot.expires slot.negEpoch ∨
        ∃ ttl, s.loading q.name = some (.remember slot.expires slot.negEpoch ttl)) := by
  cases place with
  | refuse q til epoch =>
    cases h
    refine (holds_refuse hslot).imp_right ?_
    rintro rfl
    exact ⟨q, rfl, .inl rfl⟩
  | materialize q pos r =>
    cases h
    exact .inl (holds_materialize hslot hneg)
  | drive q =>
    simp only [step, load] at h
    (repeat' split at h) <;> cases h
    case h_7.refl hl =>
      refine (holds_refuse hslot).imp_right ?_
      rintro rfl
      exact ⟨q, rfl, .inr ⟨_, hl⟩⟩
    all_goals exact .inl hslot
  | _ =>
    simp only [step] at h
    (repeat' split at h) <;> cases h <;> exact .inl hslot

lemma refuse_step (h : DnsOp.step s place = (s', .goto (.refuse q til epoch))) :
    s' = s ∧ place = .checkRefusal q epoch ∧
      ∃ ref, s.negatives q.name = some ref ∧ ref.expires = til := by
  cases place <;> simp only [step, load, landed, cleared,
    serve, goOn, release] at h <;> (repeat' split at h) <;> cases h
  simp_all

lemma sampled_step (h : step s place = (s', .goto (.checkRefusal q epoch))) :
    s' = s ∧ epoch = s.epoch := by
  cases place <;> simp only [step, load, landed, cleared,
    serve, goOn, release] at h <;> (repeat' split at h) <;> cases h
  simp_all

section

variable (h : step s place = (s', t))
include h

lemma epoch_step :
    s.epoch ≤ s'.epoch ∧ (s'.epoch = s.epoch → (∀ q k, place ≠ .raise q k) ∧
      ((s.loading n).any Loader.raising → (s'.loading n).any Loader.raising)) := by
  by_cases hn : n = place.query.name
  · cases place <;> simp only [step, load, DnsShared.materialize] at h <;>
      (repeat' split at h) <;> cases h <;>
      simp_all [DnsShared.refuse, DnsPlace.query, Loader.raising]
  · have := (frame_step (n := n) h).2 hn
    cases place <;> simp only [step, load, DnsShared.materialize] at h <;>
      (repeat' split at h) <;> cases h <;> simp_all [DnsShared.refuse]

lemma record_step (hl : s'.loading n = some (.record til epoch ttl)) :
    s.loading n = some (.record til epoch ttl) ∨ epoch = s.epoch ∧ til ≤ s.now + dnsNegTtl := by
  by_cases hn : n = place.query.name
  · cases place <;> simp only [step, load, DnsShared.materialize] at h <;>
      (repeat' split at h) <;> cases h <;>
      simp_all [DnsShared.refuse, DnsPlace.query] <;> grind [dnsNegTtl, dnsInconclusiveTtl]
  · exact .inl (((frame_step h).2 hn).2.2 ▸ hl)

lemma remember_step (hl : s'.loading n = some (.remember til epoch ttl)) :
    s.loading n = some (.remember til epoch ttl) ∨
      s.loading n = some (.record til epoch ttl) ∧
        s'.negatives n = some ⟨til, s.now + dnsNegTtl⟩ := by
  by_cases hn : n = place.query.name
  · cases place <;> simp only [step, load, DnsShared.materialize] at h <;>
      (repeat' split at h) <;> cases h <;> simp_all [DnsShared.refuse, DnsPlace.query]
  · exact .inl (((frame_step h).2 hn).2.2 ▸ hl)

lemma negative_step (hn' : s'.negatives n = some ref) :
    s.negatives n = some ref ∨ (∃ q, q.name = n ∧ place = .drive q) ∧
      ∃ epoch ttl, s.loading n = some (.record ref.expires epoch ttl) ∧
        ref.leaves = s.now + dnsNegTtl := by
  by_cases hn : n = place.query.name
  · cases place <;> simp only [step, load, DnsShared.materialize] at h <;>
      (repeat' split at h) <;> cases h <;> simp_all [DnsShared.refuse, DnsPlace.query]
    grind
  · exact .inl (((frame_step h).2 hn).2.1 ▸ hn')

lemma removed_step (hold : s.negatives n ≠ none)
    (hn' : s'.negatives n = none) :
    (∃ q k, q.name = n ∧ t = .goto (.raise q k)) ∨ (s'.loading n).any Loader.raising := by
  by_cases hn : n = place.query.name
  · cases place <;> simp only [step, load, DnsShared.materialize] at h <;>
      (repeat' split at h) <;> cases h <;>
        simp_all [DnsShared.refuse, DnsPlace.query, Loader.raising]
  · exact absurd (((frame_step h).2 hn).2.1 ▸ hn') hold

end

variable {p : DnsPool} {i : Nat} {dest : Option DnsPlace}

/-- A claim is older than the step, or has its refusal in the shared cache. -/
lemma Fenced.claimed {name : Bytes} (hp : Fenced name p) (hi : p.tasks i = some place)
    (h : DnsOp.step p.shared place = (s', t)) (hdest : ∀ q, dest = some q ↔ t = .goto q)
    (r : List (Nat × DnsResult))
    (hc : Claimed { p.move i dest with shared := s', returned := r } n til epoch) :
    Claimed p n til epoch ∨
      epoch ≤ p.shared.epoch ∧ ∃ ref, s'.negatives n = some ref ∧ til ≤ ref.leaves := by
  rcases hc with ⟨w, slot, port, hslot, hkey, hneg, rfl, rfl⟩ | ⟨q, rfl, hat⟩ | ⟨ttl, hl⟩
  · rcases memo_step h hslot hneg with hold | ⟨q, hq, hput⟩
    · exact .inl (.inl ⟨w, slot, port, hold, hkey, hneg, rfl, rfl⟩)
    obtain ⟨rfl, -⟩ := memoKey_inj (hq.symm.trans hkey)
    refine .inl (.inr (hput.imp ?_ id))
    rintro rfl
    exact ⟨q, rfl, i, hi⟩
  · rcases hat.of_move with hto | hold
    · rw [(hdest _).mp hto] at h
      obtain ⟨rfl, rfl, ref, href, rfl⟩ := refuse_step h
      exact .inr ⟨hp.sampled q epoch ⟨i, hi⟩, ref, href, (hp.kept _ ref href).1⟩
    · exact .inl (.inr (.inl ⟨q, rfl, hold⟩))
  · rcases remember_step h hl with hold | ⟨hrec, href⟩
    · exact .inl (.inr (.inr ⟨ttl, hold⟩))
    · obtain ⟨hepoch, htil⟩ := hp.recording n til epoch ttl hrec
      exact .inr ⟨hepoch, _, href, htil⟩

lemma Fenced.moved (hp : Fenced n p) (hi : p.tasks i = some place)
    (h : step p.shared place = (s', t)) (hdest : ∀ q, dest = some q ↔ t = .goto q)
    (r : List (Nat × DnsResult)) : Fenced n { p.move i dest with shared := s', returned := r } := by
  have hnow : s'.now = p.shared.now := (frame_step (n := []) h).1
  have hle : p.shared.epoch ≤ s'.epoch := (epoch_step (n := []) h).1
  refine ⟨fun n til epoch hc => ?_, fun q epoch hat => ?_, fun n til epoch ttl hl => ?_,
    fun n ref href => ?_, fun til hc hlive => ?_⟩
  · rcases hp.claimed hi h hdest r hc with hold | ⟨hepoch, -⟩
    · exact (hp.past n til epoch hold).trans hle
    · exact hepoch.trans hle
  · rcases hat.of_move with hto | hold
    · rw [(hdest _).mp hto] at h
      exact (sampled_step h).2.le.trans hle
    · exact (hp.sampled q epoch hold).trans hle
  · rw [hnow]
    rcases record_step h hl with hold | ⟨rfl, htil⟩
    · exact (hp.recording n til epoch ttl hold).imp_left hle.trans'
    · exact ⟨hle, htil⟩
  · rw [hnow]
    rcases negative_step h href with hold | ⟨-, epoch, ttl, hl, hleaves⟩
    · exact hp.kept n ref hold
    · exact ⟨hleaves ▸ (hp.recording n _ epoch ttl hl).2, hleaves.le⟩
  rcases hp.claimed hi h hdest r hc with hold | ⟨-, href⟩
  · have hsame : s'.epoch = p.shared.epoch := hle.antisymm' (hp.past n til _ hold)
    rw [hnow] at hlive
    obtain ⟨hraise, hload⟩ := (epoch_step (n := n) h).2 hsame
    rcases hp.covered til (hsame ▸ hold) hlive with ⟨ref, href, htil⟩ | ⟨q, k, hq, hat⟩ | hl
    · cases hnew : s'.negatives n with
      | none =>
        refine .inr ((removed_step h (by simp [href]) hnew).imp_left ?_)
        rintro ⟨q, k, hq, ht⟩
        exact ⟨q, k, hq, i, by simp [Pool.move, (hdest _).mpr ht]⟩
      | some ref' =>
        refine .inl ⟨ref', hnew, htil.trans ?_⟩
        rcases negative_step h hnew with hold | ⟨-, _, _, _, hleaves⟩
        · rw [Option.some.inj (href.symm.trans hold)]
        · exact hleaves ▸ (hp.kept n ref href).2
    · exact .inr (.inl ⟨q, k, hq, hat.move hi (hraise q k) dest⟩)
    · exact .inr (.inr (hload hl))
  · exact .inl href

/-- The refusal of a name stays in the shared cache for its time unless a call removes it. -/
def lasting (n : Bytes) (p : DnsPool) : DnsEvent → Bool
  | .evictNegative m => m ≠ n || (p.shared.negatives m).all (·.leaves ≤ p.shared.now)
  | _ => true

variable {e : DnsEvent}

lemma Fenced.next (hp : Fenced n p) (he : lasting n p e) : Fenced n (dnsNext p e) := by
  cases e with
  | task e =>
    have hmoves := program.moves_next p e
    change Fenced n (program.next p e)
    generalize program.next p e = p' at hmoves ⊢
    cases hmoves with
    | idle => exact hp
    | @begun i op hi =>
      have hold : ∀ place, (∀ op : DnsOp, place ≠ op.entry) →
          (p.move i (some op.entry)).At place → p.At place := fun place hne hat =>
        hat.of_move.resolve_left fun hto => hne op (Option.some.inj hto).symm
      have hclaim : ∀ {n til epoch}, Claimed (p.move i (some op.entry)) n til epoch →
          Claimed p n til epoch := by
        rintro n til epoch (hmemo | ⟨q, hq, hat⟩ | hl)
        · exact .inl hmemo
        · exact .inr (.inl ⟨q, hq, hold _ (by rintro (_ | _ | _) <;> simp [entry]) hat⟩)
        · exact .inr (.inr hl)
      refine ⟨fun n til epoch hc => hp.past n til epoch (hclaim hc), fun q epoch hat => ?_,
        hp.recording, hp.kept, fun til hc hlive => ?_⟩
      · exact hp.sampled q epoch (hold _ (by rintro (_ | _ | _) <;> simp [entry]) hat)
      · refine (hp.covered til (hclaim hc) hlive).imp_right (Or.imp_left ?_)
        rintro ⟨q, k, hq, hat⟩
        exact ⟨q, k, hq, hat.call hi _⟩
    | went hi h | ended hi h => exact hp.moved hi h (by simp) _
  | tick ms =>
    have hle : p.shared.now ≤ p.shared.now + ms := Nat.le_add_right ..
    refine ⟨hp.past, hp.sampled, fun n til epoch ttl hl => ?_, fun n ref href => ?_,
      fun til hc hlive => hp.covered til hc (hle.trans_lt hlive)⟩
    · refine (hp.recording n til epoch ttl hl).imp_right fun h => ?_
      exact h.trans (Nat.add_le_add_right hle _)
    · exact (hp.kept n ref href).imp_right fun h => h.trans (Nat.add_le_add_right hle _)
  | run _ | evictPositive _ => exact ⟨hp.past, hp.sampled, hp.recording, hp.kept, hp.covered⟩
  | evictNegative m =>
    refine ⟨hp.past, hp.sampled, hp.recording, fun n ref href => hp.kept n ref ?_,
      fun til hc hlive => (hp.covered til hc hlive).imp_left ?_⟩
    · by_cases hn : n = m <;> simp_all [dnsNext]
    · rintro ⟨ref, href, htil⟩
      refine ⟨ref, ?_, htil⟩
      by_cases hn : n = m
      · subst hn
        have hleaves : ref.leaves ≤ p.shared.now := by simpa [lasting, href] using he
        exact absurd (hlive.trans_le (htil.trans hleaves)) (lt_irrefl _)
      · simpa [dnsNext, hn] using href

/-- The step records a refusal of the name: its lookup has failed. -/
def fails (n : Bytes) (p : DnsPool) : DnsEvent → Bool
  | .task (.step i) => (p.tasks i).any fun
    | .drive q => q.name = n && (p.shared.loading n).any fun
      | .record .. => true
      | _ => false
    | _ => false
  | _ => false

/-- The step removes the refusal of the name, if there is one: its lookup has succeeded, or a
failed one finds that another has. -/
def clears (n : Bytes) (p : DnsPool) : DnsEvent → Bool
  | .task (.step i) => (p.tasks i).any fun
    | .clear q _ => q.name = n
    | .drive q => q.name = n && (p.shared.loading n).any fun
      | .clear _ => true
      | _ => false
    | _ => false
  | _ => false

lemma unrefused_of_clears (h : clears n p e) : (dnsNext p e).shared.negatives n = none := by
  unfold clears at h
  split at h
  · obtain ⟨place, hi, h⟩ := Option.any_eq_true .. |>.mp h
    rw [dnsNext, Program.shared_next hi]
    split at h
    · obtain rfl := of_decide_eq_true h
      simp only [program, step]
      split <;> simp_all
    · obtain ⟨hq, hl⟩ := Bool.and_eq_true_iff.mp h
      obtain rfl := of_decide_eq_true hq
      simp only [program, step, load]
      split <;> simp_all
      split <;> simp_all
    · cases h
  · cases h

lemma unrefused_next (hp : p.shared.negatives n = none) (he : fails n p e = false) :
    (dnsNext p e).shared.negatives n = none := by
  have hstep : ∀ {i place s' t}, p.tasks i = some place → step p.shared place = (s', t) →
      e = .task (.step i) → s'.negatives n = none := by
    rintro i place s' t hi h rfl
    by_contra hne
    obtain ⟨ref, href⟩ := Option.ne_none_iff_exists'.mp hne
    rcases negative_step h href with hold | ⟨⟨q, hq, rfl⟩, epoch, ttl, hl, -⟩
    · simp [hp] at hold
    · simp [fails, hi, hq, hl] at he
  cases e with
  | task e =>
    have hmoves := program.moves_next p e
    change (program.next p e).shared.negatives n = none
    generalize program.next p e = p' at hmoves ⊢
    cases hmoves with
    | idle | begun _ => exact hp
    | went hi h | ended hi h => exact hstep hi h rfl
  | evictNegative m => by_cases hn : n = m <;> simp [dnsNext, hn, hp]
  | _ => exact hp

lemma unrefused_after {es : List DnsEvent} (hp : p.shared.negatives n = none)
    (h : Along dnsNext (fun p e => fails n p e = false) p es) :
    (after dnsNext p es).shared.negatives n = none := by
  induction es generalizing p with
  | nil => exact hp
  | cons e es ih => exact ih (unrefused_next hp h.1) h.2

lemma Fenced.not_negative {host : String} (hp : Fenced (dnsName host) p)
    (hneg : p.shared.negatives (dnsName host) = none) (hraised : ¬ Raising p (dnsName host))
    (port : UInt16) : p.shared.lookupCachedFast w host port ≠ .negative := by
  intro h
  obtain ⟨slot, hslot, hkey, haddr, hlive, hepoch⟩ : ∃ slot, (p.shared.memos w).Holds slot ∧
      slot.key = dnsKey host port ∧ slot.addr = none ∧ p.shared.now < slot.expires ∧
      slot.negEpoch = p.shared.epoch := by
    unfold lookupCachedFast DnsMemo.lookupCachedFastWithTtl at h
    grind [DnsMemo.memoPeek_spec]
  rcases hp.covered _ (.inl ⟨w, slot, port, hslot, hkey, haddr, rfl, hepoch⟩) hlive with
    ⟨ref, href, -⟩ | hraising
  · simp [hneg] at href
  · exact hraised hraising

lemma fenced_new : Fenced n (.new {}) := by
  have hclaim : ∀ {n til epoch}, ¬ Claimed (.new {}) n til epoch := by
    rintro n til epoch (⟨w, slot, port, hslot, -⟩ | ⟨q, -, i, hi⟩ | ⟨ttl, hl⟩)
    · exact DnsMemo.not_holds_empty slot hslot
    · cases hi
    · cases hl
  refine ⟨fun _ _ _ hc => (hclaim hc).elim, ?_, ?_, ?_, fun _ hc => (hclaim hc).elim⟩
  · rintro q epoch ⟨i, hi⟩
    cases hi
  · rintro n til epoch ttl ⟨⟩
  · rintro n ref ⟨⟩

/-- Where the refusal of a name stays in the shared cache for its time: from the step on that removes
it, until a lookup of the name fails again, no worker refuses the name, unless a task is just about
to raise the epoch for it. -/
theorem resolved_not_refused (host : String) (es : List DnsEvent) (e : DnsEvent)
    (es' : List DnsEvent)
    (hbefore : Along dnsNext (fun p e => lasting (dnsName host) p e) (.new {}) es)
    (hafter : Along dnsNext (fun p e => lasting (dnsName host) p e) (after dnsNext (.new {}) es)
      (e :: es'))
    (hclears : clears (dnsName host) (after dnsNext (.new {}) es) e)
    (hlater : Along dnsNext (fun p e => fails (dnsName host) p e = false)
      (dnsNext (after dnsNext (.new {}) es) e) es')
    (hraised : ¬ Raising (after dnsNext (after dnsNext (.new {}) es) (e :: es')) (dnsName host))
    (worker : Nat) (port : UInt16) :
    (after dnsNext (after dnsNext (.new {}) es) (e :: es')).shared.lookupCachedFast worker host
      port ≠ .negative := by
  have hstep : ∀ p e, Fenced (dnsName host) p → lasting (dnsName host) p e = true →
      Fenced (dnsName host) (dnsNext p e) :=
    fun _ _ hp he => hp.next he
  have hp := after_of_invariant hstep (after_of_invariant hstep fenced_new hbefore) hafter
  have hneg := unrefused_after (unrefused_of_clears hclears) hlater
  exact hp.not_negative hneg hraised port

/-- The refresh of a name reaches the worker that refuses it. -/
theorem resolved_not_refused_refresh :
    let p := after dnsNext (.new {}) (failedLookup 9 ++ callSteps 1 (.refreshPositive answered) 3)
    p.shared.lookupCachedFast 0 "a" 80 = .negative ∧
      (after dnsNext p [.task (.step 1), .task (.step 1)]).shared.lookupCachedFast 0 "a" 80 ≠
        .negative := by
  refine ⟨by decide +kernel, resolved_not_refused "a" _ _ _ (by decide +kernel)
    (by decide +kernel) (by decide +kernel) (by decide +kernel) ?_ 0 80⟩
  rintro (⟨q, k, -, i, hi⟩ | h)
  · rcases i with _ | _ | i <;> cases hi
  · revert h
    decide +kernel

/-- The cache drops a refusal before its time. Then the name resolves on another worker and the
epoch stays, so that the first worker goes on refusing it. -/
theorem refused_after_eviction :
    let p := after dnsNext (.new {}) (failedLookup 9 ++ .evictNegative (dnsName "a") :: .run 1 ::
      callSteps 1 (.resolveAllCached answered) 9)
    p.tasks 1 = none ∧ (p.shared.positives (dnsName "a")).isSome ∧
      p.shared.lookupCachedFast 1 "a" 80 = .addr (.v4 ⟨1⟩ 80) ∧
      p.shared.lookupCachedFast 0 "a" 80 = .negative := by
  refine ⟨rfl, ?_⟩
  decide +kernel

end MyQuic2
