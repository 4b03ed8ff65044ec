import MyQuic2.Client.Hold

/-!
# One payload on its way

Every step on the way of a payload moves it from one place to the next: from the
sender's hands into the burst, from the burst into a stager, or to the payloads that
were given up. No step changes what is held.

A payload is put back when the verdict of its send says that the connection is gone.
That verdict can be the drain's, after the payload went with the burst into the stager;
the last section says when it is not.
-/

namespace MyQuic2

open List Function PayloadSend

namespace PayloadSend

lemma lost_iff (out : PayloadSend) : out.lost = true ↔ 2 ≤ out.rank := by
  obtain ⟨frames, failed⟩ := out
  cases failed with
  | none => simp [lost, rank]
  | some v => cases v <;> simp [lost, rank, DatagramSend.dead]

lemma rank_preferSevere (a b : PayloadSend) : (a.preferSevere b).rank = max a.rank b.rank := by
  unfold preferSevere
  split <;> omega

lemma lost_preferSevere (a b : PayloadSend) :
    (a.preferSevere b).lost = true ↔ a.lost = true ∨ b.lost = true := by
  rw [lost_iff, lost_iff, lost_iff, rank_preferSevere]
  omega

lemma preferSevere_alive {a b : PayloadSend} (ha : a.lost = false) (hb : b.lost = false) :
    (a.preferSevere b).lost = false := by
  rw [← Bool.not_eq_true, lost_preferSevere, ha, hb]
  decide

end PayloadSend

variable {verdict : Nat → DatagramSend}

lemma sendLoop_ne_done (encode : Nat → Bytes → Option Bytes) (plan : FragPlan) (payload : Bytes)
    {idx : Nat} (hdead : (verdict idx).dead = true) (left offset : Nat) (sent : List Bytes) :
    (sendLoop encode plan payload verdict (left + 1) idx offset sent).2 ≠ .done := by
  rw [sendLoop]
  split
  · rintro ⟨⟩
  split
  · rename_i hsent
    rw [hsent] at hdead
    cases hdead
  · rintro ⟨⟩

/-- A payload whose first fragment finds the connection gone is not sent. -/
lemma Fragmenter.send_failed (fr : Fragmenter) (space : Nat) (hdead : (verdict 0).dead = true)
    (limit : Nat) (flow : FragFlow) (payload : Bytes) :
    (fr.send space verdict limit flow payload).2.1.failed.isSome = true := by
  unfold Fragmenter.send
  split
  · rfl
  split
  · rfl
  rename_i plan hplan
  obtain ⟨total, htotal⟩ := Nat.exists_eq_succ_of_ne_zero (FragPlan.covers hplan).1.pos.ne'
  split
  · rfl
  dsimp only
  rw [htotal]
  split
  · next hdone => exact absurd (congrArg Prod.snd hdone) (sendLoop_ne_done _ _ _ hdead _ _ _)
  · rfl
  · rfl

namespace StageTasks

/-- The stager's books are in order and it has accepted at least `n` items. -/
def Books (n : Nat) (t : StageTasks) : Prop :=
  (∃ caps, t.Conserved caps) ∧ n ≤ t.accepted.length

variable {t : StageTasks}

lemma Books.next {n : Nat} (h : t.Books n) (ev : StageEvent) : (t.next ev).Books n := by
  obtain ⟨⟨caps, hcons⟩, hn⟩ := h
  obtain ⟨-, fresh, sent, hf⟩ := next_follows hcons.toSound ev
  refine ⟨⟨caps, hcons.next ev⟩, ?_⟩
  rw [hf.accepted, length_append]
  omega

lemma Books.drainStaged {n : Nat} (h : t.Books n) (limit : Nat) (call : DrainCall) :
    (t.drainStaged limit call).2.Books n :=
  drainStaged_of_kept (fun _ ev ht => ht.next ev) h limit call

end StageTasks

namespace UplinkHold

/-- The stagers are in order, and the items they took of the association are theirs. -/
structure Stages (s : UplinkHold) : Prop where
  books : ∀ g, (s.stages g).Books 0
  entered : ∀ x ∈ s.entered, x.2.2 < (s.stages x.2.1).accepted.length

variable {s : UplinkHold}

lemma Stages.books_self (h : s.Stages) (g : Nat) :
    (s.stages g).Books (s.stages g).accepted.length := ⟨(h.books g).1, le_rfl⟩

/-- A stager goes on. -/
lemma Stages.update (h : s.Stages) {g : Nat} {t : StageTasks}
    (ht : t.Books (s.stages g).accepted.length) :
    Stages { s with stages := Function.update s.stages g t } where
  books g' := by
    dsimp only
    by_cases hg : g' = g
    · rw [hg, update_self]
      exact ⟨ht.1, Nat.zero_le _⟩
    · rw [update_of_ne hg]
      exact h.books g'
  entered x hx := by
    have hlt := h.entered x hx
    dsimp only
    by_cases hg : x.2.1 = g
    · rw [hg] at hlt ⊢
      rw [update_self]
      exact lt_of_lt_of_le hlt ht.2
    · rw [update_of_ne hg]
      exact hlt

lemma entries_fst (g first : Nat) (numbers : List Nat) :
    (entries g first numbers).map Prod.fst = numbers := by
  induction numbers generalizing first with
  | nil => rfl
  | cons number numbers ih => rw [entries, map_cons, ih]

lemma mem_entries {g first : Nat} {numbers : List Nat} {x : Nat × Nat × Nat}
    (h : x ∈ entries g first numbers) : x.2.1 = g ∧ x.2.2 < first + numbers.length := by
  induction numbers generalizing first with
  | nil => exact nomatch h
  | cons number numbers ih =>
    rw [length_cons]
    rcases mem_cons.mp h with rfl | h
    · exact ⟨rfl, by dsimp only; omega⟩
    · obtain ⟨hg, hlt⟩ := ih h
      exact ⟨hg, by omega⟩

/-- A step moves payloads on. Those of `hand` were with the sender, those of `hand'` still are. -/
structure Passes (hand hand' : List Nat) (s s' : UplinkHold) : Prop where
  stages : s.Stages → s'.Stages
  pending : s'.pending = s.pending
  made : s'.made = s.made
  moved : ∃ lost, s'.given = s.given ++ lost ∧
    ∀ k, s.handed k + hand.count k = s'.handed k + hand'.count k + lost.count k

section

variable {s s' s'' : UplinkHold} {hand hand' hand'' : List Nat}

lemma Passes.refl (s : UplinkHold) (hand : List Nat) : Passes hand hand s s where
  stages := id
  pending := rfl
  made := rfl
  moved := ⟨[], (append_nil _).symm, fun _ => rfl⟩

lemma Passes.trans (h : Passes hand hand' s s') (h' : Passes hand' hand'' s' s'') :
    Passes hand hand'' s s'' := by
  obtain ⟨lost, hgiven, hmoved⟩ := h.moved
  obtain ⟨lost', hgiven', hmoved'⟩ := h'.moved
  refine ⟨h'.stages ∘ h.stages, h'.pending.trans h.pending, h'.made.trans h.made, lost ++ lost', ?_,
    fun k => ?_⟩
  · rw [hgiven', hgiven, append_assoc]
  · have hk := hmoved k
    have hk' := hmoved' k
    rw [count_append]
    omega

/-- A further payload stays in the sender's hands. -/
lemma Passes.keep (h : Passes hand hand' s s') (number : Nat) :
    Passes (number :: hand) (number :: hand') s s' := by
  obtain ⟨lost, hgiven, hmoved⟩ := h.moved
  refine ⟨h.stages, h.pending, h.made, lost, hgiven, fun k => ?_⟩
  have hk := hmoved k
  rw [count_cons, count_cons]
  omega

/-- No payload that the sender does not have is handed over. -/
lemma Passes.handed_le (h : Passes [] hand' s s') (k : Nat) : s'.handed k ≤ s.handed k := by
  obtain ⟨lost, -, hmoved⟩ := h.moved
  have hk := hmoved k
  rw [count_nil] at hk
  omega

lemma giveUp_passes (s : UplinkHold) (numbers : List Nat) :
    Passes numbers [] s (s.giveUp numbers) where
  stages h := ⟨h.books, h.entered⟩
  pending := rfl
  made := rfl
  moved := ⟨numbers, rfl, fun k => by rw [count_nil, Nat.add_zero]; rfl⟩

lemma dropStageBatch_passes : Passes [] [] s s.dropStageBatch where
  stages h := ⟨h.books, h.entered⟩
  pending := rfl
  made := rfl
  moved := by
    refine ⟨s.stageBatch.map Prod.fst, rfl, fun k => ?_⟩
    simp only [handed, batched, staged, dropStageBatch, giveUp, map_nil, count_nil]
    omega

section

variable (s : UplinkHold) (g limit : Nat) (call : DrainCall)

lemma sync_passes (closed : Bool) : Passes [] [] s (s.sync g closed) := by
  have hdrop := s.dropStageBatch_passes
  unfold sync
  split
  · exact ⟨fun h => ⟨(hdrop.stages h).books, (hdrop.stages h).entered⟩, rfl, rfl, hdrop.moved⟩
  split
  · exact hdrop
  · exact .refl s []

/-- The front of the burst goes to the stager. -/
lemma pushStageBatch_passes : Passes [] [] s (s.pushStageBatch g) where
  stages h := by
    have hbooks := (h.books_self g).next (.pushBatch (s.stageBatch.map Prod.snd))
    have hupdate := h.update hbooks
    refine ⟨hupdate.books, fun x hx => ?_⟩
    rcases mem_append.mp hx with hx | hx
    · exact hupdate.entered x hx
    obtain ⟨hg, hlt⟩ := mem_entries hx
    have hle : (s.stages g).accepted.length ≤
        ((s.stages g).pushBatch (s.stageBatch.map Prod.snd)).accepted.length := hbooks.2
    rw [length_map, length_take] at hlt
    rw [hg]
    dsimp only [pushStageBatch]
    rw [update_self]
    omega
  pending := rfl
  made := rfl
  moved := by
    refine ⟨[], (append_nil _).symm, fun k => ?_⟩
    simp only [handed, batched, staged, pushStageBatch, map_append, count_append,
      count_nil, entries_fst]
    generalize ((s.stages g).pushBatch (s.stageBatch.map Prod.snd)).accepted.length -
      (s.stages g).accepted.length = n
    have hsplit : (s.stageBatch.map Prod.fst).count k =
        ((s.stageBatch.take n).map Prod.fst).count k +
          ((s.stageBatch.drop n).map Prod.fst).count k := by
      rw [← count_append, ← map_append, take_append_drop]
    omega

lemma drainConnStage_passes : Passes [] [] s (s.drainConnStage g limit call).2 where
  stages h := h.update ((h.books_self g).drainStaged limit call)
  pending := rfl
  made := rfl
  moved := ⟨[], (append_nil _).symm, fun _ => rfl⟩

end

lemma burstQueued_passes (g limit : Nat) (drained : PayloadSend) (train : DrainCall) :
    Passes [] [] s (s.burstQueued g limit drained train).2 := by
  unfold burstQueued
  split
  · exact s.drainConnStage_passes g limit train
  · exact .refl s []

section

variable (s : UplinkHold) (g number : Nat)

lemma flushStage_passes (limit : Nat) (retry train : DrainCall) :
    Passes [] [] s (s.flushStage g limit retry train).2 := by
  have hfirst := s.pushStageBatch_passes g
  have hsecond := (hfirst.trans (drainConnStage_passes _ g limit retry)).trans
    (pushStageBatch_passes _ g)
  unfold flushStage
  split
  · exact .refl s []
  split
  · exact s.dropStageBatch_passes
  dsimp only
  split
  · exact hfirst.trans (burstQueued_passes g limit _ train)
  split
  · exact hsecond.trans (burstQueued_passes g limit _ train)
  · exact hsecond.trans (dropStageBatch_passes)

lemma sendAhead_passes (e : SendTurn) : Passes [] [] s (s.sendAhead g e).2 :=
  (s.flushStage_passes g e.limit e.retry e.train).trans (drainConnStage_passes _ g e.limit e.before)

lemma join_passes (item : StagePayload) :
    Passes [number] [] s { s with stageBatch := s.stageBatch ++ [(number, item)] } where
  stages h := ⟨h.books, h.entered⟩
  pending := rfl
  made := rfl
  moved := by
    refine ⟨[], (append_nil _).symm, fun k => ?_⟩
    simp only [handed, batched, staged, map_append, map_cons, map_nil, count_append, count_nil]
    omega

lemma stageOrCount_passes (item : StagePayload) (e : SendTurn) :
    Passes [number] [] s (s.stageOrCount g number item e).2 := by
  have hjoin := s.join_passes number item
  unfold stageOrCount
  split
  · exact s.giveUp_passes [number]
  dsimp only
  split
  · exact hjoin.trans (flushStage_passes _ g e.limit e.retry e.train)
  · exact hjoin

/-- A payload leaves the sender's hands, unless its connection is gone. -/
def Leaves (s : UplinkHold) (out : PayloadSend × UplinkHold) : Prop :=
  Passes [number] [] s out.2 ∨ (out.1.lost = true ∧ Passes [number] [number] s out.2)

end

lemma settle_leaves (number : Nat) (out : PayloadSend) :
    Leaves number s (out, s.settle number out) := by
  unfold settle
  split
  · refine .inl ⟨fun h => ⟨h.books, h.entered⟩, rfl, rfl, [], (append_nil _).symm, fun k => ?_⟩
    simp only [handed, batched, staged, count_append, count_nil]
    omega
  split
  · next hlost => exact .inr ⟨hlost, .refl s [number]⟩
  · exact .inl (s.giveUp_passes [number])

lemma sendLarge_leaves (g number : Nat) (payload : Bytes) (e : SendTurn) :
    Leaves number s (s.sendLarge g number payload e) := by
  unfold sendLarge
  split
  · generalize s.sendStandalone g payload e = out
    -- The fragmenter is no place of a payload.
    have hfrag (hand : List Nat) : Passes hand hand s { s with frag := out.2 } :=
      ⟨fun h => ⟨h.books, h.entered⟩, rfl, rfl, [], (append_nil _).symm, fun _ => rfl⟩
    rcases settle_leaves number out.1 with hgone | ⟨hlost, hkept⟩
    · exact .inl ((hfrag [number]).trans hgone)
    · exact .inr ⟨hlost, (hfrag [number]).trans hkept⟩
  · exact .inl (s.giveUp_passes [number])

lemma sendUplink_leaves (s : UplinkHold) (g number : Nat) (target : TargetAddr) (payload : Bytes)
    (e : SendTurn) : Leaves number s (s.sendUplink g number target payload e) := by
  have hsync := (s.sync_passes g e.closed).keep number
  have hahead := hsync.trans ((sendAhead_passes (s.sync g e.closed) g e).keep number)
  unfold sendUplink
  split
  · exact .inl (hahead.trans (giveUp_passes _ [number]))
  split
  · exact .inl (hsync.trans (stageOrCount_passes _ g number _ e))
  rcases sendLarge_leaves g number payload e with
    hgone | ⟨hlost, hkept⟩
  · exact .inl (hahead.trans hgone)
  · exact .inr ⟨(lost_preferSevere _ _).mpr (.inr hlost), hahead.trans hkept⟩

lemma Leaves.made {number : Nat} {out : PayloadSend × UplinkHold} (h : Leaves number s out) :
    out.2.made = s.made := by
  rcases h with h | ⟨-, h⟩
  · exact h.made
  · exact h.made

lemma Leaves.pending {number : Nat} {out : PayloadSend × UplinkHold} (h : Leaves number s out) :
    out.2.pending = s.pending := by
  rcases h with h | ⟨-, h⟩
  · exact h.pending
  · exact h.pending

end

section

variable {s : UplinkHold}

variable {g limit : Nat}

lemma drainConnStage_alive {call : DrainCall} (h : call.Alive) :
    (s.drainConnStage g limit call).1.lost = false :=
  StageTasks.drainStaged_alive h (s.stages g) limit

lemma burstQueued_alive {drained : PayloadSend} {train : DrainCall}
    (hdrained : drained.lost = false) (htrain : train.Alive) :
    (s.burstQueued g limit drained train).1.lost = false := by
  unfold burstQueued
  split
  · exact preferSevere_alive hdrained (s.drainConnStage_alive htrain)
  · exact hdrained

lemma flushStage_alive {retry train : DrainCall} (hretry : retry.Alive) (htrain : train.Alive) :
    (s.flushStage g limit retry train).1.lost = false := by
  unfold flushStage
  split
  · rfl
  split
  · rfl
  dsimp only
  split
  · exact burstQueued_alive rfl htrain
  have hdrained : (preferSevere ⟨0, none⟩
      ((s.pushStageBatch g).drainConnStage g limit retry).1).lost = false :=
    preferSevere_alive rfl (drainConnStage_alive hretry)
  split
  · exact burstQueued_alive hdrained htrain
  revert hdrained
  generalize preferSevere ⟨0, none⟩
    ((s.pushStageBatch g).drainConnStage g limit retry).1 = drained
  obtain ⟨frames, failed⟩ := drained
  cases failed with
  | none => exact fun _ => rfl
  | some v => exact id

variable {e : SendTurn}

lemma sendAhead_alive (h : e.Alive) : (s.sendAhead g e).1.lost = false :=
  preferSevere_alive (s.flushStage_alive h.1 h.2.1) (drainConnStage_alive h.2.2)

/-- A small payload for which the connection is gone went with a full burst. -/
lemma stageOrCount_lost {g number : Nat} {item : StagePayload}
    (h : (s.stageOrCount g number item e).1.lost = true) :
    ¬ e.Alive ∧ Rev2.maxTrainItems ≤ s.stageBatch.length + 1 := by
  unfold stageOrCount at h
  split at h
  · exact nomatch h
  dsimp only at h
  split at h
  · rename_i hfull
    rw [length_append, length_singleton] at hfull
    refine ⟨fun halive => ?_, hfull⟩
    rw [flushStage_alive halive.1 halive.2.1] at h
    exact nomatch h
  · exact nomatch h

lemma sendStandalone_failed (payload : Bytes) (hverdict : e.verdict.dead = true)
    (hfrag : (e.fragVerdicts.getD 0 .sent).dead = true) :
    (s.sendStandalone g payload e).1.failed.isSome = true := by
  unfold sendStandalone
  dsimp only
  split
  · rename_i hsent
    rw [hsent] at hverdict
    exact nomatch hverdict
  · rfl
  · rfl
  · exact Fragmenter.send_failed _ _ hfrag _ _ _

/-- A large payload is handed over only if its own frames were all sent. -/
lemma sendLarge_handed {number : Nat} (h0 : s.handed number = 0) (payload : Bytes) :
    (s.sendLarge g number payload e).2.handed number = 0 ∨
      ((s.sendLarge g number payload e).1.lost = false ∧
        (s.sendStandalone g payload e).1.failed.isSome = false) := by
  unfold sendLarge
  split
  · dsimp only
    generalize s.sendStandalone g payload e = out
    unfold settle
    split
    · rename_i hnone
      rw [Option.isNone_iff_eq_none] at hnone
      refine .inr ⟨?_, ?_⟩
      · rw [lost, hnone]
        rfl
      · rw [hnone]
        rfl
    · split
      · exact .inl h0
      · exact .inl h0
  · exact .inl h0

/-- Under the condition a payload for which the connection is gone was not handed over. -/
lemma Clean.stays {g : Nat} {p : HeldPayload} (h : s.Clean g p e) (h0 : s.handed p.number = 0)
    (hlost : (s.sendUplink g p.number p.target p.payload e).1.lost = true) :
    (s.sendUplink g p.number p.target p.payload e).2.handed p.number = 0 := by
  have hsync : (s.sync g e.closed).handed p.number = 0 :=
    Nat.le_zero.mp (h0 ▸ (s.sync_passes g e.closed).handed_le p.number)
  have hahead : ((s.sync g e.closed).sendAhead g e).2.handed p.number = 0 :=
    Nat.le_zero.mp (hsync ▸ (sendAhead_passes _ g e).handed_le p.number)
  revert hlost
  unfold sendUplink
  split
  · exact fun _ => hahead
  rename_i header hheader
  split
  · rename_i hsmall
    intro hlost
    obtain ⟨hdead, hfull⟩ := stageOrCount_lost hlost
    rcases h with halive | hbad | ⟨-, hroom⟩ | ⟨hlarge, -⟩
    · exact absurd halive hdead
    · rw [hheader] at hbad
      exact nomatch hbad
    · omega
    · omega
  rename_i hlarge
  intro hlost
  rcases sendLarge_handed hahead p.payload with hstays | ⟨hown, hsent⟩
  · exact hstays
  have hgone := (lost_preferSevere _ _).mp hlost
  rcases h with halive | hbad | ⟨hsmall, -⟩ | ⟨-, hverdict, hfrag⟩
  · rw [sendAhead_alive halive, hown] at hgone
    rcases hgone with hgone | hgone <;> exact nomatch hgone
  · rw [hheader] at hbad
    exact nomatch hbad
  · exact absurd hsmall hlarge
  · rw [sendStandalone_failed p.payload hverdict hfrag] at hsent
    exact nomatch hsent

end

end UplinkHold

end MyQuic2
