import MyQuic2.Dns.Policy
import MyQuic2.Mqp.Addr
import Mathlib.Data.List.Basic

/-!
# Dialling a target

The addresses of an answer are brought into one order, the families in turn and the
preferred one first, and the order is cut to the number of candidates of a dial. Only
then does the policy look at them. An answer whose first addresses are all refused is
not dialled at all, whatever stands behind them.
-/

namespace MyQuic2

open List

section

variable {α : Type}

/-- At most so many elements of two lists, in turn for as long as both have any. -/
def alternate : Nat → List α → List α → List α
  | 0, _, _ => []
  | _ + 1, [], [] => []
  | n + 1, x :: wanted, other => x :: alternate n other wanted
  | n + 1, [], y :: other => y :: alternate n other []

/-- An element stands behind those of its own list and as many of the other one, or one more if the
other one comes first. -/
lemma mem_alternate {n : Nat} {wanted other : List α} {a : α} :
    a ∈ alternate n wanted other ↔
      (∃ i, wanted[i]? = some a ∧ i + min i other.length < n) ∨
        ∃ j, other[j]? = some a ∧ j + min (j + 1) wanted.length < n := by
  induction n generalizing wanted other with
  | zero => simp [alternate]
  | succ n ih =>
    cases wanted with
    | nil =>
      cases other with
      | nil => simp [alternate]
      | cons y other =>
        rw [alternate, mem_cons, ih]
        constructor
        · rintro (rfl | ⟨i, hi, hlt⟩ | ⟨j, hj, -⟩)
          · exact .inr ⟨0, rfl, by simp⟩
          · refine .inr ⟨i + 1, hi, ?_⟩
            rw [length_nil] at hlt ⊢
            omega
          · cases hj
        rintro (⟨i, hi, -⟩ | ⟨j, hj, hlt⟩)
        · cases hi
        · cases j with
          | zero => exact .inl (Option.some.inj hj).symm
          | succ j =>
            refine .inr (.inl ⟨j, hj, ?_⟩)
            rw [length_nil] at hlt ⊢
            omega
    | cons x wanted =>
      rw [alternate, mem_cons, ih]
      -- The lists change places behind the first element.
      constructor
      · rintro (rfl | ⟨i, hi, hlt⟩ | ⟨j, hj, hlt⟩)
        · exact .inl ⟨0, rfl, by omega⟩
        · refine .inr ⟨i, hi, ?_⟩
          rw [length_cons]
          omega
        · exact .inl ⟨j + 1, hj, by omega⟩
      · rintro (⟨i, hi, hlt⟩ | ⟨j, hj, hlt⟩)
        · cases i with
          | zero => exact .inl (Option.some.inj hi).symm
          | succ i => exact .inr (.inr ⟨i, hi, by omega⟩)
        · refine .inr (.inl ⟨j, hj, ?_⟩)
          rw [length_cons] at hlt
          omega

end

/-- The address family that is tried first. -/
inductive IpPreference where
  | ipv6
  | ipv4
  deriving DecidableEq

def SocketAddr.isIpv4 : SocketAddr → Bool
  | v4 _ _ => true
  | v6 _ _ _ _ => false

namespace IpPreference

variable (pref : IpPreference) (addrs : List SocketAddr)

/-- The addresses of the preferred family. -/
def first : List SocketAddr :=
  addrs.filter fun a => a.isIpv4 == (pref == .ipv4)

/-- The addresses of the other family. -/
def second : List SocketAddr :=
  addrs.filter fun a => a.isIpv4 != (pref == .ipv4)

end IpPreference

/-- The candidates of the client's dial to its server. -/
def dialCandidatesFor (pref : IpPreference) (addrs : List SocketAddr) (max : Nat) :
    List SocketAddr :=
  alternate (Nat.max max 1) (pref.first addrs) (pref.second addrs)

/-- Candidates of one dial. -/
def dialCandMax : Nat := 8

namespace TcpDial

section

variable (pref : IpPreference) (target : TargetAddr) (answer : Option (List SocketAddr))

/-- The addresses of a target: its own, or those that its name resolved to. -/
def resolved : List SocketAddr :=
  match target with
  | .ip s => [s]
  | .domain _ _ => answer.getD []

/-- The addresses that a stream hands to the dial. A name that did not resolve has none. -/
def candidates : List SocketAddr :=
  match target with
  | .ip s => [s]
  | .domain _ _ =>
    match answer with
    | some addrs => alternate dialCandMax (pref.first addrs) (pref.second addrs)
    | none => []

end

/-- The policy of a dial. -/
def allows (allowPrivate : Bool) (a : SocketAddr) : Bool := allowPrivate || isGlobalIp a.ip

/-- The candidates that the policy lets through, up to the bound. -/
def accept (cands : List SocketAddr) (allowPrivate : Bool) : List SocketAddr :=
  (cands.filter (allows allowPrivate)).take dialCandMax

/-- What ends the wait of a race. -/
inductive RaceEvent where
  | joined (connected : Bool)
  | stagger

section

variable (cands : List SocketAddr) (allowPrivate : Bool) (events : List RaceEvent)

/-- How many candidates a race has started, from those started and still running. The race ends
with a connection, without anything left to wait for, or with its budget. -/
def raceFrom (count : Nat) : List RaceEvent → Nat → Nat → Nat
  | [], next, _ => next
  | .joined connected :: events, next, running =>
    if running = 0 then raceFrom count events next running
    else if connected then next
    else if next = count ∧ running - 1 = 0 then next
    else if next < count then raceFrom count events (next + 1) running
    else raceFrom count events next (running - 1)
  | .stagger :: events, next, running =>
    if next < count then raceFrom count events (next + 1) (running + 1)
    else raceFrom count events next running

/-- The candidates that a race connects to, in the caller's order. -/
def raceDial : List SocketAddr :=
  cands.take (raceFrom cands.length events 1 1)

/-- The addresses that a dial connects to. A single candidate is not raced. -/
def dialHappyEyeballs : List SocketAddr :=
  match accept cands allowPrivate with
  | [] => []
  | [a] => [a]
  | a :: b :: rest => raceDial (a :: b :: rest) events

end

/-- The addresses that the stream of a target connects to. -/
def dial (pref : IpPreference) (allowPrivate : Bool) (target : TargetAddr)
    (answer : Option (List SocketAddr)) (events : List RaceEvent) : List SocketAddr :=
  dialHappyEyeballs (candidates pref target answer) allowPrivate events

variable {allowPrivate : Bool} {cands : List SocketAddr}

lemma le_raceFrom (count : Nat) (events : List RaceEvent) (next running : Nat) :
    next ≤ raceFrom count events next running := by
  induction events generalizing next running with
  | nil => exact le_rfl
  | cons ev events ih =>
    cases ev with
    | joined connected =>
      unfold raceFrom
      split
      · exact ih next running
      split
      · exact le_rfl
      split
      · exact le_rfl
      split
      · exact (Nat.le_succ next).trans (ih (next + 1) running)
      · exact ih next (running - 1)
    | stagger =>
      unfold raceFrom
      split
      · exact (Nat.le_succ next).trans (ih (next + 1) (running + 1))
      · exact ih next running

/-- What is dialled is a part of what was accepted, and not an empty one. -/
lemma dialHappyEyeballs_spec (events : List RaceEvent) :
    dialHappyEyeballs cands allowPrivate events <+: accept cands allowPrivate ∧
      (accept cands allowPrivate ≠ [] → dialHappyEyeballs cands allowPrivate events ≠ []) := by
  unfold dialHappyEyeballs
  split
  · next hnone => exact ⟨ nil_prefix, fun hne => absurd hnone hne⟩
  · next a hone => exact ⟨hone ▸ prefix_rfl, fun _ => cons_ne_nil _ _⟩
  · rename_i a b rest hmany
    rw [hmany]
    refine ⟨ take_prefix _ _, fun _ hnil => ?_⟩
    have hstarted := le_raceFrom (a :: b :: rest).length events 1 1
    rcases take_eq_nil_iff.mp hnil with hzero | hempty
    · omega
    · cases hempty

lemma accept_ne_nil (h : ∃ a ∈ cands, allows allowPrivate a = true) :
    accept cands allowPrivate ≠ [] := by
  obtain ⟨a, ha, hallows⟩ := h
  intro hnil
  rcases take_eq_nil_iff.mp hnil with hzero | hempty
  · cases hzero
  · exact absurd (hempty ▸ mem_filter.mpr ⟨ha, hallows⟩) not_mem_nil

/-- An allowed address stands early enough in the order of the answer: the addresses ahead of it,
those of its own family and as many of the other one, leave room for it among the candidates. -/
def Early (pref : IpPreference) (allowPrivate : Bool) (addrs : List SocketAddr) : Prop :=
  (∃ i, i + min i (pref.second addrs).length < dialCandMax ∧
      ∃ a ∈ (pref.first addrs)[i]?, allows allowPrivate a = true) ∨
    ∃ j, j + min (j + 1) (pref.first addrs).length < dialCandMax ∧
      ∃ a ∈ (pref.second addrs)[j]?, allows allowPrivate a = true

/-- The policy meets an allowed candidate exactly when one stands early enough. -/
lemma candidate_allowed_iff {pref : IpPreference} {target : TargetAddr}
    {answer : Option (List SocketAddr)} :
    (∃ a ∈ candidates pref target answer, allows allowPrivate a = true) ↔
      Early pref allowPrivate (resolved target answer) := by
  cases target with
  | ip s =>
    have hfamily : ∀ {i : Nat} {p : SocketAddr → Bool} {a : SocketAddr},
        a ∈ ([s].filter p)[i]? → a ∈ [s] :=
      fun ha => mem_of_mem_filter (mem_of_getElem? ha)
    constructor
    · rintro ⟨a, ha, hallows⟩
      obtain rfl := mem_singleton.mp ha
      -- alone in its family, and nothing stands ahead of it
      cases hp : a.isIpv4 == (pref == .ipv4) with
      | true => exact .inl ⟨0, by simp [dialCandMax], a, by simp [IpPreference.first, resolved, hp],
          hallows⟩
      | false =>
        refine .inr ⟨0, ?_, a, ?_, hallows⟩
        · simp [dialCandMax, IpPreference.first, resolved, hp]
        · simp [IpPreference.second, resolved, bne, hp]
    · rintro (⟨i, -, a, ha, hallows⟩ | ⟨j, -, a, ha, hallows⟩)
      · exact ⟨a, hfamily ha, hallows⟩
      · exact ⟨a, hfamily ha, hallows⟩
  | domain host port =>
    cases answer with
    | none => simp [candidates, resolved, Early, IpPreference.first, IpPreference.second]
    | some addrs =>
      constructor
      · rintro ⟨a, ha, hallows⟩
        rcases mem_alternate.mp ha with ⟨i, hi, hlt⟩ | ⟨j, hj, hlt⟩
        · exact .inl ⟨i, hlt, a, hi, hallows⟩
        · exact .inr ⟨j, hlt, a, hj, hallows⟩
      · rintro (⟨i, hlt, a, hi, hallows⟩ | ⟨j, hlt, a, hj, hallows⟩)
        · exact ⟨a, mem_alternate.mpr (.inl ⟨i, hi, hlt⟩), hallows⟩
        · exact ⟨a, mem_alternate.mpr (.inr ⟨j, hj, hlt⟩), hallows⟩

/-- A dial connects to allowed addresses only. To one of those that the target resolved to it
connects exactly when one stands early enough, if there are any. -/
theorem dial_reaches_allowed_iff (pref : IpPreference) (allowPrivate : Bool) (target : TargetAddr)
    (answer : Option (List SocketAddr)) (events : List RaceEvent) :
    (((∃ a ∈ resolved target answer, allows allowPrivate a = true) →
        ∃ a ∈ dial pref allowPrivate target answer events, allows allowPrivate a = true) ↔
      ((∃ a ∈ resolved target answer, allows allowPrivate a = true) →
        Early pref allowPrivate (resolved target answer))) ∧
      ∀ a ∈ dial pref allowPrivate target answer events,
        a ∈ candidates pref target answer ∧ allows allowPrivate a = true := by
  obtain ⟨hdialled, hsome⟩ := dialHappyEyeballs_spec events
  have hallowed : ∀ a ∈ dial pref allowPrivate target answer events,
      a ∈ candidates pref target answer ∧ allows allowPrivate a = true :=
    fun a ha => mem_filter.mp (mem_of_mem_take (hdialled.subset ha))
  refine ⟨imp_congr_right fun _ => ?_, hallowed⟩
  rw [← candidate_allowed_iff]
  constructor
  · rintro ⟨a, ha, hallows⟩
    exact ⟨a, (hallowed a ha).1, hallows⟩
  · intro hcand
    obtain ⟨b, hb⟩ := exists_mem_of_ne_nil _ (hsome (accept_ne_nil hcand))
    exact ⟨b, hb, (hallowed b hb).2⟩

/-- Private addresses of one family, one more than a dial has candidates for, but for the last. -/
def privateFirst : List SocketAddr :=
  [.v4 (.new 10 0 0 1) 443, .v4 (.new 10 0 0 2) 443, .v4 (.new 10 0 0 3) 443,
    .v4 (.new 10 0 0 4) 443, .v4 (.new 10 0 0 5) 443, .v4 (.new 10 0 0 6) 443,
    .v4 (.new 10 0 0 7) 443, .v4 (.new 10 0 0 8) 443, .v4 (.new 8 8 8 8) 443]

/-- Eight refused addresses hide an allowed one. -/
theorem refused_addresses_hide_allowed :
    (∃ a ∈ resolved (.domain "example" 443) (some privateFirst), allows false a = true) ∧
      dial .ipv6 false (.domain "example" 443) (some privateFirst) [] = [] := by
  decide +kernel

end TcpDial

end MyQuic2
