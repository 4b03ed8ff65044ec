import MyQuic2.Client.Flush

/-!
# Grouped sends

The frames for a destination go out in one batch call as far as the kernel takes them, and one by
one after that.
-/

namespace MyQuic2

open List Dispatcher

/-- A header and a payload, which go out as one datagram. -/
abbrev SendFrame := Bytes × Bytes

inductive KernelVerdict where
  | sent
  | wouldBlock
  /-- The call was interrupted, or there was no memory. -/
  | transient
  | hard
  deriving DecidableEq

/-- The answers for a frame: of the runtime, of the kernel when the runtime had none, and of the
retry queue. -/
structure SendAnswers where
  ready : KernelVerdict
  raw : KernelVerdict
  slot : Bool

inductive UdpWrite where
  | sent
  | retried
  | droppedNoPermit
  | failed
  deriving DecidableEq

/-- What became of the frames by their numbers, the calls that the kernel answered, and the
datagrams that wait for a retry. -/
structure SendLog where
  books : List (Nat × UdpWrite)
  calls : List (Nat × Bytes × KernelVerdict)
  queue : List (Nat × Bytes)

namespace SendLog

/-- Count the outcome of a frame. -/
def book (log : SendLog) (i : Nat) (w : UdpWrite) : SendLog :=
  { log with books := log.books ++ [(i, w)] }

/-- Ask for a datagram to be sent. -/
def call (log : SendLog) (i : Nat) (payload : Bytes) (v : KernelVerdict) : SendLog :=
  { log with calls := log.calls ++ [(i, payload, v)] }

/-- The datagrams that the kernel took. -/
def wire (log : SendLog) : List (Nat × Bytes) :=
  log.calls.filterMap fun c => if c.2.2 = .sent then some (c.1, c.2.1) else none

/-- Hand a datagram to the retry queue, which may have no slot for it. -/
def udpRetrySubmit (log : SendLog) (i : Nat) (payload : Bytes) (slot : Bool) : SendLog :=
  if slot then { log with queue := log.queue ++ [(i, payload)] }.book i .retried
  else log.book i .droppedNoPermit

end SendLog

def udpTrySendSlice (a : SendAnswers) (i : Nat) (payload : Bytes) (log : SendLog) : SendLog :=
  let log := log.call i payload a.ready
  match a.ready with
  | .sent => log.book i .sent
  | .wouldBlock =>
    let log := log.call i payload a.raw
    match a.raw with
    | .sent => log.book i .sent
    | .hard => log.book i .failed
    | .wouldBlock | .transient => log.udpRetrySubmit i payload a.slot
  | .transient => log.udpRetrySubmit i payload a.slot
  | .hard => log.book i .failed

def udpTrySendFrame (answers : Nat → SendAnswers) (i : Nat) (frame : SendFrame) (log : SendLog) :
    SendLog :=
  if frame.1.isEmpty then udpTrySendSlice (answers i) i frame.2 log
  else udpTrySendSlice (answers i) i (frame.1 ++ frame.2) log

/-- The octets of the parts that a message has. -/
def iovecs (frame : SendFrame) : Bytes :=
  let header := if frame.1.isEmpty then [] else [frame.1]
  (header ++ if !frame.2.isEmpty || header.isEmpty then [frame.2] else []).flatten

/-- A batch call: the kernel takes as many messages from the front as `batch` says, and none when
the call fails. -/
def sendmmsgFrames (batch : Option Nat) (frames : List SendFrame) (log : SendLog) : Nat × SendLog :=
  let sent := min (batch.getD 0) frames.length
  (sent, { log with
    calls := log.calls ++ (frames.take sent).mapIdx fun i f => (i, iovecs f, .sent) })

/-- Book so many frames that a batch call has sent. -/
def bookSent (sent : Nat) (log : SendLog) : SendLog :=
  (range sent).foldl (fun log i => log.book i .sent) log

def eachFrame (step : Nat → SendFrame → SendLog → SendLog) : Nat → List SendFrame → SendLog → SendLog
  | _, [], log => log
  | i, f :: fs, log => eachFrame step (i + 1) fs (step i f log)

/-- Send the frames. `batch` is how many of them a batch call takes, and `none` when it fails. -/
def udpTrySendGrouped (sendmmsgAvailable : Bool) (batch : Option Nat) (answers : Nat → SendAnswers)
    (frames : List SendFrame) (log : SendLog) : SendLog :=
  match frames with
  | [] => log
  | [f] =>
    if !f.1.isEmpty && sendmmsgAvailable then
      let (sent, log) := sendmmsgFrames batch [f] log
      if sent = 1 then log.book 0 .sent else udpTrySendFrame answers 0 f log
    else udpTrySendFrame answers 0 f log
  | frames =>
    let n := min frames.length lastHopDrain
    let (sent, log) := if sendmmsgAvailable then sendmmsgFrames batch (frames.take n) log else (0, log)
    let log := bookSent sent log
    let log := eachFrame (udpTrySendFrame answers) sent ((frames.take n).drop sent) log
    eachFrame (udpTrySendFrame answers) n (frames.drop n) log

def frameOctets (frames : List SendFrame) (i : Nat) : Bytes :=
  ((frames[i]?).map fun f => f.1 ++ f.2).getD []

/-- The first frames are booked once each. What the kernel took is the octets of those that are
booked as sent, and what is queued is the octets of those that are booked as retried. -/
structure SendLog.Accounts (log : SendLog) (frames : List SendFrame) (n : Nat) : Prop where
  booked : log.books.map Prod.fst = range n
  wire : log.wire = (log.books.filter (·.2 = .sent)).map fun e => (e.1, frameOctets frames e.1)
  queue : log.queue = (log.books.filter (·.2 = .retried)).map fun e => (e.1, frameOctets frames e.1)

variable {log : SendLog} {frames fs : List SendFrame} {f : SendFrame} {n : Nat}

lemma frameOctets_of_getElem? (hf : frames[n]? = some f) : frameOctets frames n = f.1 ++ f.2 := by
  simp [frameOctets, hf]

lemma iovecs_eq (f : SendFrame) : iovecs f = f.1 ++ f.2 := by
  unfold iovecs
  cases f.1 <;> cases f.2 <;> simp

namespace SendLog.Accounts

variable (h : log.Accounts frames n)
include h

/-- A call that the kernel refused leaves the account as it is. -/
lemma refused {payload : Bytes} {v : KernelVerdict} {i : Nat} (hv : v ≠ .sent) :
    (log.call i payload v).Accounts frames n := by
  have hwire : (log.call i payload v).wire = log.wire := by
    simp [SendLog.wire, SendLog.call, hv]
  exact ⟨h.booked, hwire.trans h.wire, h.queue⟩

lemma sent (hf : frames[n]? = some f) :
    ((log.call n (f.1 ++ f.2) .sent).book n .sent).Accounts frames (n + 1) := by
  have hwire := h.wire
  unfold SendLog.wire at hwire
  refine ⟨?_, ?_, ?_⟩
  · simp [SendLog.book, SendLog.call, h.booked, range_succ]
  · simp [SendLog.wire, SendLog.book, SendLog.call, hwire, frameOctets_of_getElem? hf]
  · simp [SendLog.book, SendLog.call, h.queue]

lemma dropped {w : UdpWrite} (hsent : w ≠ .sent) (hretried : w ≠ .retried) :
    (log.book n w).Accounts frames (n + 1) := by
  have hwire := h.wire
  unfold SendLog.wire at hwire
  refine ⟨?_, ?_, ?_⟩
  · simp [SendLog.book, h.booked, range_succ]
  · simp [SendLog.wire, SendLog.book, hwire, hsent]
  · simp [SendLog.book, h.queue, hretried]

lemma submit (hf : frames[n]? = some f) (slot : Bool) :
    (log.udpRetrySubmit n (f.1 ++ f.2) slot).Accounts frames (n + 1) := by
  have hwire := h.wire
  unfold SendLog.wire at hwire
  cases slot with
  | false => exact h.dropped (by decide) (by decide)
  | true =>
    refine ⟨?_, ?_, ?_⟩
    · simp [SendLog.udpRetrySubmit, SendLog.book, h.booked, range_succ]
    · simp [SendLog.wire, SendLog.udpRetrySubmit, SendLog.book, hwire]
    · simp [SendLog.udpRetrySubmit, SendLog.book, h.queue, frameOctets_of_getElem? hf]

/-- A frame is booked by the last answer that it got. -/
lemma trySendSlice (hf : frames[n]? = some f) (a : SendAnswers) :
    (udpTrySendSlice a n (f.1 ++ f.2) log).Accounts frames (n + 1) := by
  obtain ⟨ready, raw, slot⟩ := a
  unfold udpTrySendSlice
  cases ready with
  | sent => exact h.sent hf
  | hard => exact (h.refused (by simp)).dropped (by decide) (by decide)
  | transient => exact (h.refused (by simp)).submit hf slot
  | wouldBlock =>
    have hready : (log.call n (f.1 ++ f.2) .wouldBlock).Accounts frames n := h.refused (by decide)
    cases raw with
    | sent => exact hready.sent hf
    | hard => exact (hready.refused (by simp)).dropped (by decide) (by decide)
    | wouldBlock | transient => exact (hready.refused (by simp)).submit hf slot

lemma trySendFrame (hf : frames[n]? = some f) (answers : Nat → SendAnswers) :
    (udpTrySendFrame answers n f log).Accounts frames (n + 1) := by
  have hslice : udpTrySendFrame answers n f log =
      udpTrySendSlice (answers n) n (f.1 ++ f.2) log := by
    unfold udpTrySendFrame
    split <;> simp_all
  rw [hslice]
  exact h.trySendSlice hf (answers n)

/-- No frame is taken twice, since none is booked twice. -/
lemma once : log.Accounts frames n ∧ (log.wire.map Prod.fst).Nodup := by
  refine ⟨h, ?_⟩
  rw [h.wire, map_map]
  have hbooked : (log.books.map Prod.fst).Nodup := h.booked ▸ nodup_range
  exact hbooked.sublist (filter_sublist.map Prod.fst)

lemma eachFrame (fs : List SendFrame) {step : Nat → SendFrame → SendLog → SendLog}
    (hstep : ∀ {log n f}, Accounts log frames n → frames[n]? = some f →
      (step n f log).Accounts frames (n + 1))
    (hfs : ∀ k g, fs[k]? = some g → frames[n + k]? = some g) :
    (eachFrame step n fs log).Accounts frames (n + fs.length) := by
  induction fs generalizing n log with
  | nil => exact h
  | cons f fs ih =>
    have hnext := ih (hstep h (hfs 0 f rfl)) fun k g hg => by
      rw [Nat.add_assoc, Nat.add_comm 1]
      exact hfs (k + 1) g hg
    rw [length_cons, Nat.add_comm fs.length, ← Nat.add_assoc]
    exact hnext

end SendLog.Accounts

lemma getElem?_of_take {k : Nat} (h : (fs.take n)[k]? = some f) : fs[k]? = some f := by
  rw [getElem?_take, Option.ite_none_right_eq_some] at h
  exact h.2

lemma bookSent_eq (sent : Nat) (log : SendLog) :
    bookSent sent log = { log with books := log.books ++ (range sent).map (·, .sent) } := by
  induction sent with
  | zero => simp [bookSent]
  | succ sent ih =>
    unfold bookSent at ih ⊢
    rw [range_succ, foldl_append, ih]
    simp [SendLog.book]

/-- What a batch call takes from the front of the frames is what is booked after it. -/
lemma batch_accounts (batch : Option Nat)
    (hfs : ∀ (k : Nat) (g : SendFrame), fs[k]? = some g → frames[k]? = some g) :
    (bookSent (sendmmsgFrames batch fs ⟨[], [], []⟩).1
      (sendmmsgFrames batch fs ⟨[], [], []⟩).2).Accounts frames (min (batch.getD 0) fs.length) := by
  rw [bookSent_eq]
  generalize hsent : min (batch.getD 0) fs.length = sent
  refine ⟨by simp [sendmmsgFrames, hsent, Function.comp_def], ?_, by simp [sendmmsgFrames, filter_map]⟩
  have hle : sent ≤ fs.length := hsent ▸ Nat.min_le_right _ _
  have hcalls : (fs.take sent).mapIdx (fun i f => (i, iovecs f, KernelVerdict.sent)) =
      (range sent).map fun i => (i, frameOctets frames i, .sent) := by
    refine ext_getElem (by simp [hle]) fun k hk _ => ?_
    rw [length_mapIdx, length_take_of_le hle] at hk
    have hframe := hfs k _ (getElem?_eq_getElem (hk.trans_le hle))
    simp [iovecs_eq, frameOctets_of_getElem? hframe]
  simp [SendLog.wire, sendmmsgFrames, hsent, hcalls, filterMap_map, filter_map, Function.comp_def]

/-- Whatever the kernel answers, the account of a group is complete: what it took is what was booked
as sent, and it took no frame twice. -/
theorem grouped_send_accounts (sendmmsgAvailable : Bool) (batch : Option Nat)
    (answers : Nat → SendAnswers) (frames : List SendFrame) :
    let log := udpTrySendGrouped sendmmsgAvailable batch answers frames ⟨[], [], []⟩
    log.Accounts frames frames.length ∧ (log.wire.map Prod.fst).Nodup := by
  have hnil : SendLog.Accounts ⟨[], [], []⟩ frames 0 := ⟨rfl, rfl, rfl⟩
  have htry : ∀ {log n f}, SendLog.Accounts log frames n → frames[n]? = some f →
      (udpTrySendFrame answers n f log).Accounts frames (n + 1) :=
    fun h hf => h.trySendFrame hf answers
  refine SendLog.Accounts.once ?_
  unfold udpTrySendGrouped
  split
  · exact hnil
  · rename_i f
    split
    · have hbatch := @batch_accounts [f] [f] batch fun _ _ hf => hf
      dsimp only
      split
      · rename_i hone
        rw [show min (batch.getD 0) [f].length = 1 from hone, hone] at hbatch
        exact hbatch
      · rename_i hone
        have hzero : (sendmmsgFrames batch [f] ⟨[], [], []⟩).1 = 0 := by
          have hle : (sendmmsgFrames batch [f] ⟨[], [], []⟩).1 ≤ 1 := Nat.min_le_right _ _
          omega
        rw [show min (batch.getD 0) [f].length = 0 from hzero, hzero] at hbatch
        exact hbatch.trySendFrame rfl answers
    · exact hnil.trySendFrame rfl answers
  dsimp only
  generalize hn : min frames.length lastHopDrain = n
  -- the frames behind those of the batch call go out one by one
  generalize hp : (if sendmmsgAvailable then sendmmsgFrames batch (frames.take n) ⟨[], [], []⟩
    else (0, ⟨[], [], []⟩)) = p
  have hfirst : (bookSent p.1 p.2).Accounts frames p.1 ∧ p.1 ≤ n := by
    rw [← hp]
    split
    · refine ⟨batch_accounts batch fun k g => getElem?_of_take, ?_⟩
      exact (Nat.min_le_right _ _).trans (length_take_le n frames)
    · exact ⟨hnil, Nat.zero_le n⟩
  obtain ⟨sent, log⟩ := p
  obtain ⟨hfirst, hle⟩ := hfirst
  have hrest := hfirst.eachFrame ((frames.take n).drop sent) htry fun k g hg => by
    rw [getElem?_drop] at hg
    exact getElem?_of_take hg
  rw [length_drop, length_take_of_le (by omega), Nat.add_sub_of_le hle] at hrest
  have hall := hrest.eachFrame (frames.drop n) htry fun k g hg => by
    rwa [getElem?_drop] at hg
  rwa [length_drop, Nat.add_sub_of_le (by omega)] at hall

end MyQuic2
