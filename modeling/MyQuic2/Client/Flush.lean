import MyQuic2.Client.Dispatch
import MyQuic2.Dns.Policy

/-!
# Flushing a burst of replies

The dispatcher stages the replies of a burst and then sends them in runs, each over one relay
socket to one application. A reply behind another one of its association is staged without the
socket and takes that of its run.
-/

namespace MyQuic2.Dispatcher

open List

def lastHopDrain : Nat := 32

/-- An association's relay socket, and how it writes replies. -/
structure AssocEntry where
  relay : Nat
  rawReply : Bool
  replyV6 : Bool

/-- A live association with the address of its application. -/
structure Hit where
  entry : AssocEntry
  app : SocketAddr

/-- What the lookup of a session finds. -/
abbrev Lookup := UInt32 → Option Hit

structure StagedReply where
  sock : Option Nat
  app : SocketAddr
  dst : SocketAddr
  payload : Bytes
  raw : Bool
  replyV6 : Bool

/-- A staged reply, with the association that its frame resolved to. -/
abbrev Staged := StagedReply × Hit

def stage (hit : Hit) (sock : Option Nat) (dst : SocketAddr) (payload : Bytes) : Staged :=
  (⟨sock, hit.app, dst, payload, hit.entry.rawReply, hit.entry.replyV6⟩, hit)

def stageReply (hit : Hit) : SocketAddr → Bytes → Staged := stage hit (some hit.entry.relay)

def stageReplyFollow (hit : Hit) : SocketAddr → Bytes → Staged := stage hit none

/-- The items of a frame of one session: the first one staged takes the socket. -/
def stageItems (hit : Hit) : Option Nat → List (Option SocketAddr × Bytes) → List Staged
  | _, [] => []
  | head, (none, _) :: items => stageItems hit head items
  | head, (some dst, payload) :: items => stage hit head dst payload :: stageItems hit none items

/-- The items of a train. An item of the session staged last follows that without a lookup. -/
def stageTrain (c : ClientConn) :
    Option (UInt32 × Hit) → List (UInt32 × Bytes × Lookup) → List Staged
  | _, [] => []
  | last, (id, payload, lookup) :: items =>
    match (c.registry.lookup id).bind fun b => b.replyDst.map (b.session, ·) with
    | none => stageTrain c last items
    | some (sess, dst) =>
      match last.filter (·.1 = sess) with
      | some (_, hit) => stageReplyFollow hit dst payload :: stageTrain c last items
      | none =>
        match lookup sess with
        | none => stageTrain c last items
        | some hit => stageReply hit dst payload :: stageTrain c (some (sess, hit)) items

/-- An item of a legacy frame: its source is inline or an address of the session's table. -/
structure V3Item where
  flow : UInt16
  inline : Option TargetAddr
  payload : Bytes

/-- A datagram once decoded, with the lookups it meets. -/
inductive Inbound where
  | data (f : Wire.DataView) (lookup : Lookup)
  | frag (a : Assembled) (lookup : Lookup)
  | train (items : List (UInt32 × Bytes × Lookup))
  | v3 (sess : UInt32) (items : List V3Item) (table : UInt16 → Option TargetAddr) (lookup : Lookup)
  | batch (sess : UInt32) (addr : TargetAddr) (payloads : List Bytes) (lookup : Lookup)
  | single (sess : UInt32) (addr : TargetAddr) (payload : Bytes) (lookup : Lookup)
  /-- Control, malformed and incomplete datagrams. -/
  | other

variable (cached : String → UInt16 → Option SocketAddr)

def V3Item.dst (table : UInt16 → Option TargetAddr) (item : V3Item) : Option SocketAddr :=
  match item.inline with
  | some addr => ClientConn.addrDst cached addr
  | none =>
    match table item.flow with
    | some (.ip dst) => some dst
    | _ => none

/-- A reply of a wire frame, once its association is found. -/
def deliver (lookup : Lookup) : Option MyQuic2.StagedReply → List Staged
  | none => []
  | some r =>
    match lookup r.session with
    | none => []
    | some hit => [stageReply hit r.dst r.payload]

/-- The items of a legacy frame, once its association is found. -/
def deliverItems (lookup : Lookup) (sess : UInt32) (items : List (Option SocketAddr × Bytes)) :
    List Staged :=
  match lookup sess with
  | none => []
  | some hit => stageItems hit (some hit.entry.relay) items

def dispatchInbound (w : Wire) (c : ClientConn) : Inbound → List Staged × ClientConn
  | .data f lookup =>
    let (r, c) := c.dispatchData cached w f
    (deliver lookup r, c)
  | .frag a lookup =>
    let (r, c) := c.dispatchFrag cached w a
    (deliver lookup r, c)
  | .train items =>
    let opened := items.foldl (fun r item =>
      match r.lookup item.1 with
      | some b => r.insert item.1 b.markOpen
      | none => r) c.registry
    (stageTrain c none items, { c with registry := opened })
  | .v3 sess items table lookup =>
    (deliverItems lookup sess (items.map fun item => (item.dst cached table, item.payload)), c)
  | .batch sess addr payloads lookup =>
    (deliverItems lookup sess (payloads.map fun p => (ClientConn.addrDst cached addr, p)), c)
  | .single sess addr payload lookup =>
    (deliverItems lookup sess [(ClientConn.addrDst cached addr, payload)], c)
  | .other => ([], c)

/-- The replies of a burst. -/
def stageBurst (w : Wire) : ClientConn → List Inbound → List Staged
  | _, [] => []
  | c, d :: ds =>
    let (out, c) := dispatchInbound cached w c d
    out ++ stageBurst w c ds

/-- A reply that a datagram carries for a session, with its source, the lookup it meets and those
that its frame has made before. -/
structure Carried where
  sess : UInt32
  src : SocketAddr
  payload : Bytes
  lookup : Lookup
  earlier : List Lookup

/-- The replies of a train have the sessions of their flows. -/
def trainReplies (c : ClientConn) : List Lookup → List (UInt32 × Bytes × Lookup) → List Carried
  | _, [] => []
  | earlier, (id, payload, lookup) :: items =>
    match (c.registry.lookup id).bind fun b => b.replyDst.map (b.session, ·) with
    | none => trainReplies c earlier items
    | some (sess, src) =>
      ⟨sess, src, payload, lookup, earlier⟩ :: trainReplies c (lookup :: earlier) items

/-- The replies of a legacy frame, which have one session. -/
def itemReplies (lookup : Lookup) (sess : UInt32) (items : List (Option SocketAddr × Bytes)) :
    List Carried :=
  items.filterMap fun item => item.1.map fun src => ⟨sess, src, item.2, lookup, []⟩

/-- The replies that a datagram carries, whether or not their sessions are alive. -/
def Inbound.replies (w : Wire) (c : ClientConn) : Inbound → List Carried
  | .data f lookup =>
    (c.dispatchData cached w f).1.toList.map fun r => ⟨r.session, r.dst, r.payload, lookup, []⟩
  | .frag a lookup =>
    (c.dispatchFrag cached w a).1.toList.map fun r => ⟨r.session, r.dst, r.payload, lookup, []⟩
  | .train items => trainReplies c [] items
  | .v3 sess items table lookup =>
    itemReplies lookup sess (items.map fun item => (item.dst cached table, item.payload))
  | .batch sess addr payloads lookup =>
    itemReplies lookup sess (payloads.map fun p => (ClientConn.addrDst cached addr, p))
  | .single sess addr payload lookup =>
    itemReplies lookup sess [(ClientConn.addrDst cached addr, payload)]
  | .other => []

def burstReplies (w : Wire) : ClientConn → List Inbound → List Carried
  | _, [] => []
  | c, d :: ds => d.replies cached w c ++ burstReplies w (dispatchInbound cached w c d).2 ds

def encodeReplyHeader : SocketAddr → Bytes
  | .v4 ip port => [0, 0, 0, 1] ++ ip.octets ++ beBytes 2 port.toNat
  | .v6 ip port _ _ => [0, 0, 0, 4] ++ ip.octets ++ beBytes 2 port.toNat

/-- Datagrams handed to one socket for one destination, each a header and a payload. -/
structure SendGroup where
  sock : Nat
  dst : SocketAddr
  frames : List (Bytes × Bytes)

namespace StagedReply

def frame (r : StagedReply) : Bytes × Bytes :=
  (if r.raw then [] else encodeReplyHeader r.dst, r.payload)

def sendDst (r : StagedReply) : SocketAddr := if r.replyV6 then mapForDual r.app else r.app

/-- A reply goes with the run of the head that has the socket. -/
def joins (head : StagedReply) (sock : Nat) (r : StagedReply) : Bool :=
  r.app = head.app && r.replyV6 = head.replyV6 && r.raw = head.raw && r.sock.all (· = sock)

end StagedReply

/-- A run in pieces of what one call takes. -/
def pieces {α : Type} (l : List α) : List (List α) :=
  if l.isEmpty then [] else l.take lastHopDrain :: pieces (l.drop lastHopDrain)
termination_by l.length
decreasing_by
  have hpos : 0 < lastHopDrain := by decide
  cases l <;> simp_all
  omega

/-- The calls for a run. -/
def sendRun (sock : Nat) (dst : SocketAddr) (run : List StagedReply) : List SendGroup :=
  (pieces run).map fun piece => ⟨sock, dst, piece.map StagedReply.frame⟩

/-- Send the staged replies in runs; without an answer where a run's head lacks its socket. -/
def flushStaged : List StagedReply → Option (List SendGroup)
  | [] => some []
  | r :: rest =>
    match r.sock with
    | none => none
    | some sock =>
      let run := sendRun sock r.sendDst (r :: rest.takeWhile (r.joins sock))
      (flushStaged (rest.dropWhile (r.joins sock))).map (run ++ ·)
termination_by staged => staged.length
decreasing_by exact Nat.lt_succ_of_le (dropWhile_suffix _).length_le

/-- The reply goes to the application and in the mode of the association. -/
def StagedReply.IsOf (r : StagedReply) (hit : Hit) : Prop :=
  r.app = hit.app ∧ r.raw = hit.entry.rawReply ∧ r.replyV6 = hit.entry.replyV6

/-- Every reply has its association's socket, or that of a reply of the same association right in
front of it. -/
def Linked : Option Hit → List Staged → Prop
  | _, [] => True
  | last, (r, hit) :: staged => r.IsOf hit ∧
    (r.sock = some hit.entry.relay ∨ r.sock = none ∧ last = some hit) ∧ Linked (some hit) staged

variable {last : Option Hit} {xs ys : List Staged} {hit : Hit}

lemma joins_iff {r x : StagedReply} {own : Hit} (hr : r.IsOf hit) (hx : x.IsOf own)
    (hsock : x.sock = some own.entry.relay ∨ x.sock = none ∧ some hit = some own) :
    r.joins hit.entry.relay x = true ↔ own = hit := by
  obtain ⟨⟨relay, raw, v6⟩, app⟩ := hit
  obtain ⟨⟨relay', raw', v6'⟩, app'⟩ := own
  simp only [StagedReply.IsOf] at hr hx
  simp only [StagedReply.joins, hr, hx]
  grind

/-- A run has the owner of its head throughout, and what follows begins with a socket. -/
lemma Linked.run {r : StagedReply} (hr : r.IsOf hit) (h : Linked (some hit) xs) :
    (∀ x ∈ xs.takeWhile (fun x => r.joins hit.entry.relay x.1), x.2 = hit ∧ x.1.IsOf hit) ∧
      Linked none (xs.dropWhile fun x => r.joins hit.entry.relay x.1) := by
  induction xs with
  | nil => simp [Linked]
  | cons x xs ih =>
    obtain ⟨x, own⟩ := x
    obtain ⟨hx, hsock, hrest⟩ := h
    have hiff := joins_iff hr hx hsock
    by_cases hj : r.joins hit.entry.relay x = true
    · obtain rfl := hiff.mp hj
      simpa [hj, hx] using ih hrest
    simp only [hj, takeWhile_cons, dropWhile_cons, Bool.false_eq_true, if_false]
    refine ⟨by simp, hx, .inl (hsock.resolve_right ?_), hrest⟩
    rintro ⟨-, hown⟩
    exact hj (hiff.mpr (Option.some.inj hown).symm)

lemma flatten_pieces {α : Type} (l : List α) : (pieces l).flatten = l := by
  fun_induction pieces l with
  | case1 l hl => simp_all
  | case2 l hl ih => simp [ih]

lemma length_of_mem_pieces {α : Type} {l piece : List α} (h : piece ∈ pieces l) :
    piece.length ≤ lastHopDrain := by
  fun_induction pieces l with
  | case1 l hl => simp at h
  | case2 l hl ih =>
    rcases mem_cons.mp h with rfl | h
    · simp
    · exact ih h

/-- A datagram with the socket that it leaves from. -/
structure Sent where
  sock : Nat
  dst : SocketAddr
  frame : Bytes × Bytes

def SendGroup.sent (g : SendGroup) : List Sent := g.frames.map fun f => ⟨g.sock, g.dst, f⟩

/-- What a reply to an association has to become. -/
def Hit.sent (hit : Hit) (src : SocketAddr) (payload : Bytes) : Sent where
  sock := hit.entry.relay
  dst := if hit.entry.replyV6 then mapForDual hit.app else hit.app
  frame := (if hit.entry.rawReply then [] else encodeReplyHeader src, payload)

/-- The datagrams are those of the replies, in their order. A reply is for an association that a
lookup of its frame has found for its session, and only one whose own lookup finds none may be
left out. -/
inductive Delivered : List Carried → List Sent → Prop
  | nil : Delivered [] []
  | dead {r : Carried} {rs : List Carried} {out : List Sent} (h : r.lookup r.sess = none) :
    Delivered rs out → Delivered (r :: rs) out
  | sent {r : Carried} {rs : List Carried} {out : List Sent} {hit : Hit}
    (h : ∃ lookup ∈ r.lookup :: r.earlier, lookup r.sess = some hit) :
    Delivered rs out → Delivered (r :: rs) (hit.sent r.src r.payload :: out)

def sentTo (x : Staged) : Sent := x.2.sent x.1.dst x.1.payload

/-- The replies are staged in their order, each for an association that a lookup of its frame has
found for its session, with the socket of that or behind another reply for it. -/
inductive Stages : Option Hit → List Carried → List Staged → Prop
  | nil {last : Option Hit} : Stages last [] []
  | dead {last : Option Hit} {r : Carried} {rs : List Carried} {xs : List Staged}
    (h : r.lookup r.sess = none) : Stages last rs xs → Stages last (r :: rs) xs
  | staged {last : Option Hit} {r : Carried} {rs : List Carried} {xs : List Staged} {hit : Hit}
    {sock : Option Nat} (h : ∃ lookup ∈ r.lookup :: r.earlier, lookup r.sess = some hit)
    (hsock : sock = some hit.entry.relay ∨ sock = none ∧ last = some hit) :
    Stages (some hit) rs xs → Stages last (r :: rs) (stage hit sock r.src r.payload :: xs)

namespace Stages

variable {rs rs' : List Carried}

lemma linked (h : Stages last rs xs) : Linked last xs := by
  induction h with
  | nil => trivial
  | dead _ _ ih => exact ih
  | staged _ hsock _ ih => exact ⟨⟨rfl, rfl, rfl⟩, hsock, ih⟩

lemma delivered (h : Stages last rs xs) : Delivered rs (xs.map sentTo) := by
  induction h with
  | nil => exact .nil
  | dead hnone _ ih => exact .dead hnone ih
  | staged hfound _ _ ih => exact .sent hfound ih

lemma behind (h : Stages none rs xs) : Stages last rs xs := by
  generalize hnone : (none : Option Hit) = head at h
  induction h with
  | nil => exact .nil
  | dead hdead _ ih => exact .dead hdead (ih hnone)
  | staged hfound hsock hrest =>
    subst hnone
    exact .staged hfound (.inl (hsock.resolve_right (by simp))) hrest

lemma append (h : Stages last rs xs) (h' : Stages none rs' ys) :
    Stages last (rs ++ rs') (xs ++ ys) := by
  induction h with
  | nil => exact h'.behind
  | dead hnone _ ih => exact .dead hnone ih
  | staged hfound hsock _ ih => exact .staged hfound hsock ih

end Stages

/-- The session staged last is one that a lookup of the train has found. -/
lemma stages_stageTrain (c : ClientConn) {last : Option (UInt32 × Hit)} {earlier : List Lookup}
    (hlast : ∀ x ∈ last, ∃ lookup ∈ earlier, lookup x.1 = some x.2)
    (items : List (UInt32 × Bytes × Lookup)) :
    Stages (last.map Prod.snd) (trainReplies c earlier items) (stageTrain c last items) := by
  induction items generalizing last earlier with
  | nil => exact .nil
  | cons item items ih =>
    obtain ⟨id, payload, lookup⟩ := item
    have hmore : ∀ x ∈ last, ∃ l ∈ lookup :: earlier, l x.1 = some x.2 := fun x hx =>
      (hlast x hx).imp fun _ hl => ⟨mem_cons_of_mem _ hl.1, hl.2⟩
    unfold trainReplies stageTrain
    split
    · exact ih hlast
    split
    · rename_i hfollow
      obtain ⟨hprev, hsess⟩ := Option.filter_eq_some_iff.mp hfollow
      obtain rfl := of_decide_eq_true hsess
      have hrest := ih hmore
      rw [hprev] at hrest ⊢
      exact .staged (hmore _ hprev) (.inr ⟨rfl, rfl⟩) hrest
    split
    · rename_i hnone
      exact .dead hnone (ih hmore)
    · rename_i hit hfound
      refine .staged ⟨lookup, mem_cons_self, hfound⟩ (.inl rfl) (@ih (some (_, hit)) _ ?_)
      rintro x ⟨⟩
      exact ⟨lookup, mem_cons_self, hfound⟩

lemma stages_deliver (lookup : Lookup) (r : Option MyQuic2.StagedReply) :
    Stages none (r.toList.map fun r => ⟨r.session, r.dst, r.payload, lookup, []⟩)
      (deliver lookup r) := by
  unfold deliver
  split
  · exact .nil
  split
  · rename_i hnone
    exact .dead hnone .nil
  · rename_i hfound
    exact .staged ⟨lookup, mem_cons_self, hfound⟩ (.inl rfl) .nil

lemma stages_deliverItems (lookup : Lookup) (sess : UInt32)
    (items : List (Option SocketAddr × Bytes)) :
    Stages none (itemReplies lookup sess items) (deliverItems lookup sess items) := by
  unfold deliverItems
  split
  · rename_i hnone
    induction items with
    | nil => exact .nil
    | cons item items ih =>
      obtain ⟨_ | src, payload⟩ := item
      · exact ih
      · exact .dead hnone ih
  rename_i hit hfound
  -- the first one staged has the socket, and the others stand behind it
  have hall : ∀ {last head}, head = some hit.entry.relay ∨ head = none ∧ last = some hit →
      Stages last (itemReplies lookup sess items) (stageItems hit head items) := by
    induction items with
    | nil => exact fun _ => .nil
    | cons item items ih =>
      intro last head hsock
      obtain ⟨_ | src, payload⟩ := item
      · exact ih hsock
      · exact .staged ⟨lookup, mem_cons_self, hfound⟩ hsock (ih (.inr ⟨rfl, rfl⟩))
  exact hall (.inl rfl)

lemma stages_stageBurst (w : Wire) (c : ClientConn) (ds : List Inbound) :
    Stages none (burstReplies cached w c ds) (stageBurst cached w c ds) := by
  induction ds generalizing c with
  | nil => exact .nil
  | cons d ds ih =>
    refine Stages.append ?_ (ih _)
    cases d with
    | data f lookup | frag f lookup => exact stages_deliver ..
    | train items => exact @stages_stageTrain c none [] (by simp) items
    | v3 | batch | single => exact stages_deliverItems ..
    | other => exact .nil

lemma sent_sendRun (sock : Nat) (dst : SocketAddr) (run : List StagedReply) :
    (sendRun sock dst run).flatMap SendGroup.sent = run.map fun r => ⟨sock, dst, r.frame⟩ := by
  conv_rhs => rw [← flatten_pieces run]
  simp [sendRun, SendGroup.sent, map_flatten, flatMap_def, Function.comp_def]

lemma length_of_mem_sendRun {sock : Nat} {dst : SocketAddr} {run : List StagedReply}
    {g : SendGroup} (h : g ∈ sendRun sock dst run) : g.frames.length ≤ lastHopDrain := by
  obtain ⟨piece, hpiece, rfl⟩ := mem_map.mp h
  simpa using length_of_mem_pieces hpiece

lemma sentTo_of_isOf {r x : StagedReply} (hr : r.IsOf hit) (hx : x.IsOf hit) :
    sentTo (x, hit) = ⟨hit.entry.relay, r.sendDst, x.frame⟩ := by
  simp [sentTo, Hit.sent, StagedReply.sendDst, StagedReply.frame, hr.1, hr.2.2, hx.2.1]

lemma Linked.flush {xs : List Staged} (h : Linked none xs) :
    ∃ groups, flushStaged (xs.map Prod.fst) = some groups ∧
      groups.flatMap SendGroup.sent = xs.map sentTo ∧
      ∀ g ∈ groups, g.frames.length ≤ lastHopDrain := by
  match xs, h with
  | [], _ => exact ⟨[], by simp [flushStaged], rfl, by simp⟩
  | (r, hit) :: rest, ⟨hr, hsock, hrest⟩ =>
    have hsock := hsock.resolve_right (by simp)
    obtain ⟨hrun, hmore⟩ := hrest.run hr
    obtain ⟨groups, hflush, hsent, hlen⟩ := hmore.flush
    let run := rest.takeWhile fun x => r.joins hit.entry.relay x.1
    have hall : run.map sentTo = run.map fun x => ⟨hit.entry.relay, r.sendDst, x.1.frame⟩ := by
      refine map_congr_left fun x hx => ?_
      obtain ⟨x, own⟩ := x
      obtain ⟨rfl, hof⟩ := hrun _ hx
      exact sentTo_of_isOf hr hof
    refine ⟨sendRun hit.entry.relay r.sendDst (r :: run.map Prod.fst) ++ groups, ?_, ?_, ?_⟩
    · simp [flushStaged, hsock, takeWhile_map, dropWhile_map, Function.comp_def, hflush, run]
    · have hmap : rest.map sentTo = run.map sentTo ++
          (rest.dropWhile fun x => r.joins hit.entry.relay x.1).map sentTo := by
        rw [← map_append, takeWhile_append_dropWhile]
      simp [sent_sendRun, hsent, sentTo_of_isOf hr hr, hmap, hall]
    · intro g hg
      exact (mem_append.mp hg).elim length_of_mem_sendRun (hlen g)
termination_by xs.length
decreasing_by exact Nat.lt_succ_of_le (dropWhile_suffix _).length_le

/-- Whatever a burst holds: its flush finds a socket at the head of every run, and sends the replies
of the burst once and in order, each over the relay socket, to the application and in the mode of
the association that the lookup of its session found. -/
theorem burst_reaches_owners (w : Wire) (c : ClientConn) (ds : List Inbound) :
    ∃ groups, flushStaged ((stageBurst cached w c ds).map Prod.fst) = some groups ∧
      Delivered (burstReplies cached w c ds) (groups.flatMap SendGroup.sent) ∧
      ∀ g ∈ groups, g.frames.length ≤ lastHopDrain := by
  have hstages := stages_stageBurst cached w c ds
  obtain ⟨groups, hflush, hsent, hlen⟩ := hstages.linked.flush
  exact ⟨groups, hflush, hsent ▸ hstages.delivered, hlen⟩

end MyQuic2.Dispatcher
