import MyQuic2.Core.Run
import MyQuic2.Dns.Policy
import Mathlib.Data.List.Nodup

/-!
# The reply allowlist

A session accepts replies from the addresses in a ring of the latest destinations. A
destination that is in the ring is not entered again and keeps its place, so it leaves
with the sixteenth other one after its own entry, however often it was sent to since.
-/

namespace MyQuic2

open List

def recentDstCap : Nat := 16

/-- The ring. Its position counts the entries: the wrap of the machine word is a multiple of the
size. -/
structure RecentAddrs where
  slots : List (Option IpAddr)
  pos : Nat

namespace RecentAddrs

def new : RecentAddrs := ⟨List.replicate recentDstCap none, 0⟩

variable (r : RecentAddrs) (ip : IpAddr)

def containsIp : Bool :=
  (r.pos ≠ 0 && r.slots[(r.pos - 1) % recentDstCap]? == some (some ip)) ||
    r.slots.contains (some ip)

def push (dst : SocketAddr) : RecentAddrs :=
  let ip := unmap dst.ip
  if r.containsIp ip then r
  else ⟨r.slots.set (r.pos % recentDstCap) (some ip), r.pos + 1⟩

def contains (src : SocketAddr) : Bool := r.containsIp (unmap src.ip)

lemma containsIp_eq : r.containsIp ip = r.slots.contains (some ip) := by
  rw [containsIp, Bool.or_eq_right_iff_imp]
  simp only [Bool.and_eq_true, beq_iff_eq, contains_iff_mem]
  exact fun h => mem_of_getElem? h.2

end RecentAddrs

/-- The latest entries of a list of addresses. -/
def latest (l : List IpAddr) : List IpAddr := l.drop (l.length - recentDstCap)

/-- A push enters an address unless it is among the latest. -/
def enter (l : List IpAddr) (dst : SocketAddr) : List IpAddr :=
  if unmap dst.ip ∈ latest l then l else l ++ [unmap dst.ip]

/-- The addresses that a sequence of pushes enters, in order. -/
def entered (dsts : List SocketAddr) : List IpAddr := dsts.foldl enter []

namespace RecentAddrs

/-- The ring holds the latest entries of the list, each at its place. -/
structure Holds (r : RecentAddrs) (l : List IpAddr) : Prop where
  size : r.slots.length = recentDstCap
  pos : r.pos = l.length
  filled : ∀ j ip, l[j]? = some ip → l.length ≤ j + recentDstCap →
    r.slots[j % recentDstCap]? = some (some ip)
  free : ∀ i, l.length ≤ i → i < recentDstCap → r.slots[i]? = some none
  nodup : (latest l).Nodup

variable {r : RecentAddrs} {l : List IpAddr}

lemma mem_latest {ip : IpAddr} :
    ip ∈ latest l ↔ ∃ j, l[j]? = some ip ∧ l.length ≤ j + recentDstCap := by
  rw [latest, mem_iff_getElem?]
  constructor
  · rintro ⟨i, hi⟩
    rw [getElem?_drop] at hi
    exact ⟨_, hi, by omega⟩
  · rintro ⟨j, hj, hle⟩
    refine ⟨j - (l.length - recentDstCap), ?_⟩
    rw [getElem?_drop, ← hj]
    congr 1
    omega

lemma Holds.contains_iff (h : r.Holds l) (ip : IpAddr) :
    r.containsIp ip = true ↔ ip ∈ latest l := by
  rw [containsIp_eq, contains_iff_mem, mem_iff_getElem?, mem_latest]
  constructor
  · rintro ⟨i, hi⟩
    obtain ⟨hlt, -⟩ := List.getElem?_eq_some_iff.mp hi
    rw [h.size] at hlt
    unfold recentDstCap at hlt ⊢
    -- The place holds the latest entry whose number falls on it.
    by_cases hfree : l.length ≤ i
    · rw [h.free i hfree hlt] at hi
      cases hi
    have hplace : (l.length - 1 - (l.length - 1 - i) % 16) % 16 = i := by omega
    obtain ⟨ip', hj⟩ : ∃ ip', l[l.length - 1 - (l.length - 1 - i) % 16]? = some ip' :=
      ⟨_, getElem?_eq_getElem (by omega)⟩
    have hfilled := h.filled _ ip' hj (by unfold recentDstCap; omega)
    rw [recentDstCap, hplace, hi] at hfilled
    cases hfilled
    exact ⟨_, hj, by omega⟩
  · rintro ⟨j, hj, hle⟩
    exact ⟨_, h.filled j ip hj hle⟩

lemma Holds.push (h : r.Holds l) (dst : SocketAddr) : (r.push dst).Holds (enter l dst) := by
  unfold RecentAddrs.push enter
  dsimp only
  simp only [h.contains_iff]
  split
  · exact h
  rename_i hnew
  have hlength : (l ++ [unmap dst.ip]).length = l.length + 1 := length_append
  refine ⟨by rw [length_set, h.size], by rw [h.pos, hlength], ?_, ?_, ?_⟩
  · intro j ip hj hle
    obtain ⟨hlt, -⟩ := List.getElem?_eq_some_iff.mp hj
    rw [hlength] at hlt hle
    rw [h.pos, List.getElem?_set, h.size]
    unfold recentDstCap at hle ⊢
    by_cases hlast : j = l.length
    · subst hlast
      rw [getElem?_concat_length] at hj
      rw [if_pos rfl, if_pos (by omega), Option.some.inj hj]
    · rw [getElem?_append_left (by omega)] at hj
      rw [if_neg (by omega)]
      exact h.filled j ip hj (by unfold recentDstCap; omega)
  · intro i hi hlt
    rw [hlength] at hi
    rw [h.pos, getElem?_set, if_neg (by rw [Nat.mod_eq_of_lt (by omega)]; omega)]
    exact h.free i (by omega) hlt
  · have hdrop : latest (l ++ [unmap dst.ip]) =
        (latest l).drop (l.length + 1 - recentDstCap - (l.length - recentDstCap)) ++
          [unmap dst.ip] := by
      unfold latest recentDstCap
      rw [hlength, drop_append_of_le_length (by omega), drop_drop]
      congr 2
      omega
    rw [hdrop, ← concat_eq_append, nodup_concat]
    exact ⟨fun hmem => hnew (mem_of_mem_drop hmem), h.nodup.sublist (drop_sublist ..)⟩

lemma Holds.pushes (h : r.Holds l) (dsts : List SocketAddr) :
    (dsts.foldl RecentAddrs.push r).Holds (dsts.foldl enter l) := by
  induction dsts generalizing r l with
  | nil => exact h
  | cons dst dsts ih => exact ih (h.push dst)

/-- After any pushes the ring holds the latest entries. -/
lemma holds_pushes (dsts : List SocketAddr) : (dsts.foldl push new).Holds (entered dsts) := by
  have hnew : new.Holds [] := by
    refine ⟨rfl, rfl, ?_, fun i _ hi => getElem?_replicate_of_lt hi, .nil⟩
    rintro _ _ ⟨⟩
  exact hnew.pushes dsts

lemma contains_push (r : RecentAddrs) (hsize : r.slots.length = recentDstCap) (dst : SocketAddr) :
    (r.push dst).contains dst = true := by
  unfold contains RecentAddrs.push
  dsimp only
  split
  · assumption
  · rw [containsIp_eq, contains_iff_mem]
    exact mem_set (by rw [hsize]; exact Nat.mod_lt _ (by decide)) _

end RecentAddrs

/-- The allowlist of a session with the copy of its reader, and of its history the pushes. The copy
has no epoch at first. -/
structure Allowlist where
  recent : RecentAddrs
  epoch : Nat
  allowSnap : Option RecentAddrs
  allowEpoch : Option Nat
  pushed : List SocketAddr

namespace Allowlist

def new : Allowlist := ⟨.new, 0, none, none, []⟩

def rememberDst (a : Allowlist) (dst : SocketAddr) : Allowlist :=
  if a.recent.slots.contains (some (unmap dst.ip)) then a
  else
    { a with
      recent := a.recent.push dst
      epoch := a.epoch + 1
      pushed := a.pushed ++ [dst] }

/-- The copy that a reply is looked up in. -/
def reload (a : Allowlist) : Allowlist :=
  if a.allowEpoch ≠ some a.epoch then
    { a with allowSnap := some a.recent, allowEpoch := some a.epoch }
  else a

/-- The ring is made of the pushes, and the copy is the ring when its epoch is the current one. -/
structure Kept (a : Allowlist) : Prop where
  ring : a.recent = a.pushed.foldl RecentAddrs.push .new
  copy : ∀ e, a.allowEpoch = some e → e ≤ a.epoch ∧ (e = a.epoch → a.allowSnap = some a.recent)

lemma Kept.contains_rememberDst {a : Allowlist} (h : a.Kept) (dst : SocketAddr) :
    (a.rememberDst dst).recent.contains dst = true := by
  unfold rememberDst
  split
  · rwa [RecentAddrs.contains, RecentAddrs.containsIp_eq]
  · refine a.recent.contains_push ?_ dst
    rw [h.ring]
    exact (RecentAddrs.holds_pushes _).size

lemma Kept.rememberDst {a : Allowlist} (h : a.Kept) (dst : SocketAddr) :
    (a.rememberDst dst).Kept ∧ a.epoch ≤ (a.rememberDst dst).epoch ∧
      ((a.rememberDst dst).epoch = a.epoch → (a.rememberDst dst).recent = a.recent) := by
  unfold Allowlist.rememberDst
  split
  · exact ⟨h, Nat.le_refl _, fun _ => rfl⟩
  · refine ⟨⟨?_, fun e he => ?_⟩, Nat.le_succ _, fun hepoch => absurd hepoch (Nat.succ_ne_self _)⟩
    · rw [foldl_append, ← h.ring]
      rfl
    · have hle := (h.copy e he).1
      exact ⟨Nat.le_succ_of_le hle, fun heq => absurd (heq ▸ hle) (Nat.not_succ_le_self _)⟩

lemma Kept.reload {a : Allowlist} (h : a.Kept) :
    a.reload.Kept ∧ a.reload.allowSnap = some a.recent ∧ a.reload.recent = a.recent ∧
      a.reload.epoch = a.epoch := by
  unfold Allowlist.reload
  split
  · refine ⟨⟨h.ring, ?_⟩, rfl, rfl, rfl⟩
    rintro _ ⟨⟩
    exact ⟨Nat.le_refl _, fun _ => rfl⟩
  · rename_i hsame
    exact ⟨h, (h.copy _ (not_not.mp hsame)).2 rfl, rfl, rfl⟩

end Allowlist

/-- The allowlists of a connection, and the mirror of the datagram reader. -/
structure Allowlists where
  lists : UInt32 → Allowlist
  mirror : Option (UInt32 × SocketAddr × Nat)

inductive AllowEvent where
  /-- The reader, or a resolver task that it cannot see, records a destination. -/
  | remember (s : UInt32) (dst : SocketAddr)
  /-- The reader records a destination through its mirror, with the session armed or not. -/
  | mirrorRecord (s : UInt32) (dst : SocketAddr) (armed : Bool)
  | reply (s : UInt32)

namespace Allowlists

def set (r : Allowlists) (s : UInt32) (a : Allowlist) : Allowlists :=
  { r with lists := Function.update r.lists s a }

def next (r : Allowlists) : AllowEvent → Allowlists
  | .remember s dst => r.set s ((r.lists s).rememberDst dst)
  | .mirrorRecord s dst armed =>
    let a := (r.lists s).rememberDst dst
    if armed = false then { r.set s a with mirror := none }
    else if r.mirror ≠ some (s, dst, (r.lists s).epoch) then
      { r.set s a with mirror := some (s, dst, a.epoch) }
    else r
  | .reply s => r.set s (r.lists s).reload

def new : Allowlists := ⟨fun _ => .new, none⟩

/-- Every list is kept, and what the mirror skips is in the ring. -/
structure Kept (r : Allowlists) : Prop where
  lists : ∀ s, (r.lists s).Kept
  mirror : ∀ s dst e, r.mirror = some (s, dst, e) → e ≤ (r.lists s).epoch ∧
    (e = (r.lists s).epoch → (r.lists s).recent.contains dst = true)

variable {r : Allowlists}

lemma Kept.set (h : r.Kept) {s : UInt32} {a : Allowlist} (ha : a.Kept)
    (hle : (r.lists s).epoch ≤ a.epoch)
    (hsame : a.epoch = (r.lists s).epoch → a.recent = (r.lists s).recent) : (r.set s a).Kept := by
  refine ⟨fun s' => ?_, fun s' dst e he => ?_⟩ <;> by_cases hs : s' = s
  · simpa [Allowlists.set, hs] using ha
  · simpa [Allowlists.set, hs] using h.lists s'
  · subst hs
    obtain ⟨hold, hin⟩ := h.mirror s' dst e he
    simp only [Allowlists.set, Function.update_self]
    refine ⟨hold.trans hle, fun heq => ?_⟩
    rw [hsame (by omega)]
    exact hin (by omega)
  · simpa [Allowlists.set, hs] using h.mirror s' dst e he

lemma Kept.next (h : r.Kept) (ev : AllowEvent) : (r.next ev).Kept := by
  cases ev with
  | remember s dst =>
    obtain ⟨hkept, hle, hsame⟩ := (h.lists s).rememberDst dst
    exact h.set hkept hle hsame
  | mirrorRecord s dst armed =>
    obtain ⟨hkept, hle, hsame⟩ := (h.lists s).rememberDst dst
    have hset := h.set hkept hle hsame
    rw [Allowlists.next]
    split
    · exact ⟨hset.lists, by rintro _ _ _ ⟨⟩⟩
    split
    · refine ⟨hset.lists, ?_⟩
      rintro _ _ _ ⟨⟩
      simp only [Allowlists.set, Function.update_self]
      exact ⟨Nat.le_refl _, fun _ => (h.lists s).contains_rememberDst dst⟩
    · exact h
  | reply s =>
    obtain ⟨hkept, -, hring, hepoch⟩ := (h.lists s).reload
    exact h.set hkept hepoch.ge fun _ => hring

/-- In every run a ring holds the latest sixteen entries, which are distinct; behind a call that
records a destination the ring has it, and behind a reply the reader's copy is the ring. -/
theorem allowlist_recent (es : List AllowEvent) :
    let r := after next new es
    (∀ s, (r.lists s).recent = (r.lists s).pushed.foldl RecentAddrs.push .new) ∧
    (∀ dsts src, ((dsts.foldl RecentAddrs.push .new).contains src = true ↔
      unmap src.ip ∈ latest (entered dsts)) ∧ (latest (entered dsts)).Nodup) ∧
    (∀ s dst, ((r.next (.remember s dst)).lists s).recent.contains dst = true) ∧
    (∀ s dst armed, ((r.next (.mirrorRecord s dst armed)).lists s).recent.contains dst = true) ∧
    ∀ s, ((r.next (.reply s)).lists s).allowSnap = some ((r.next (.reply s)).lists s).recent := by
  intro r
  have hnew : new.Kept := ⟨fun _ => ⟨rfl, by rintro _ ⟨⟩⟩, by rintro _ _ _ ⟨⟩⟩
  have h : r.Kept := after_of_kept (fun _ ev h => h.next ev) hnew es
  refine ⟨fun s => (h.lists s).ring, fun dsts src => ?_, fun s dst => ?_, fun s dst armed => ?_,
    fun s => ?_⟩
  · exact ⟨(RecentAddrs.holds_pushes dsts).contains_iff _, (RecentAddrs.holds_pushes dsts).nodup⟩
  · simpa [Allowlists.next, Allowlists.set] using (h.lists s).contains_rememberDst dst
  · have hin := (h.lists s).contains_rememberDst dst
    rw [Allowlists.next]
    split
    · simpa [Allowlists.set] using hin
    split
    · simpa [Allowlists.set] using hin
    · rename_i hskip
      exact (h.mirror s dst _ (not_not.mp hskip)).2 rfl
  · obtain ⟨-, hsnap, hring, -⟩ := (h.lists s).reload
    simp [Allowlists.next, Allowlists.set, hsnap, hring]

/-- A destination that is sent to again as the oldest of its ring leaves it with the next one. -/
theorem resent_dst_evicted :
    let dst (n : Nat) : SocketAddr := .v4 ⟨BitVec.ofNat 32 n⟩ 53
    let calls := (List.range 16).map dst ++ [dst 0]
    let r := after next new (calls.map (.remember 7))
    (r.lists 7).recent.contains (dst 0) = true ∧
    ((r.next (.remember 7 (dst 16))).lists 7).recent.contains (dst 0) = false := by
  decide

end Allowlists

end MyQuic2
