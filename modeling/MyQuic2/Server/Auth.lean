import MyQuic2.Core.Bytes

/-!
# Authentication of a client

The server reads the client's unidirectional streams one after another until one
of them is complete, and compares it with the token. What handles a connection is
started only when this succeeds.
-/

namespace MyQuic2

open List

/-- Largest token. -/
def authTokenMaxBytes : Nat := 256

/-- Streams that are looked at before giving up. -/
def maxAuthStreams : Nat := 16

/-- Time for the token exchange, in milliseconds. -/
def authTimeoutMs : Nat := 5000

/-- How a stream of the client ends. -/
inductive StreamEnd where
  | finished (data : Bytes)
  | reset
  /-- The read fails otherwise: early data was discarded, or the connection is lost. -/
  | failed

/-- A stream of the client, in the order the server accepts them. -/
structure ClientStream where
  ending : StreamEnd
  /-- When the end is known; never, for a stream that stays open. -/
  settledAt : Option Nat

namespace ClientStream

/-- The whole content, if it fits. -/
def readToEnd (s : ClientStream) (limit : Nat) : Option Bytes :=
  match s.ending with
  | .finished data => if data.length ≤ limit then some data else none
  | .reset | .failed => none

def settledBy (s : ClientStream) (deadline : Nat) : Bool := s.settledAt.any (· ≤ deadline)

end ClientStream

/-- Comparison in constant time: unequal lengths, or the conjunction over all bytes. -/
def ctEq (a b : Bytes) : Bool :=
  if a.length ≠ b.length then false
  else (a.zip b).foldl (fun same p => same && p.1 == p.2) true

/-- Why a client is refused. -/
inductive AuthError where
  | timeout
  | mismatch
  | tooManyStreams

def AuthError.message : AuthError → String
  | timeout => "auth timeout"
  | mismatch => "auth token mismatch"
  | tooManyStreams => "too many auth streams without a complete token"

/-- One attempt per stream. A stream that cannot be read is passed over, and the first complete one
decides. When no stream is left, the wait ends at the deadline. -/
def authLoop (expected : Bytes) (deadline : Nat) :
    Nat → List ClientStream → Except AuthError Unit
  | 0, _ => .error .tooManyStreams
  | _ + 1, [] => .error .timeout
  | attempts + 1, s :: streams =>
    if s.settledBy deadline then
      match s.readToEnd authTokenMaxBytes with
      | none => authLoop expected deadline attempts streams
      | some got => if ctEq got expected then .ok () else .error .mismatch
    else .error .timeout

def authenticate (streams : List ClientStream) (expected : Bytes) (deadline : Nat) :
    Except AuthError Unit :=
  if expected.isEmpty then .ok () else authLoop expected deadline maxAuthStreams streams

/-- How an incoming connection becomes usable. -/
inductive Incoming where
  | refused
  | early
  | settled
  | failed
  | timedOut

/-- What the task of an accepted connection does. -/
inductive AcceptAct where
  | spawnMonitor
  | releaseIpGuard
  | close (code : Nat) (reason : String)
  | authenticated
  | releasePending
  | raiseCredit
  | handleConn
  deriving DecidableEq

/-- What is done on the way to a usable connection, if there is one. -/
def establish (authEnabled : Bool) : Incoming → Option (List AcceptAct)
  | .early => some [.spawnMonitor]
  | .settled => some (if authEnabled then [] else [.releaseIpGuard])
  | .refused | .failed | .timedOut => none

def acceptTask (token : Bytes) (incoming : Incoming) (streams : List ClientStream) (now : Nat) :
    List AcceptAct :=
  match establish (!token.isEmpty) incoming with
  | none => []
  | some acts =>
    match authenticate streams token (now + authTimeoutMs) with
    | .error _ => acts ++ [.close 1 "unauthorized"]
    | .ok () =>
      acts ++ [.authenticated, .releasePending, .releaseIpGuard, .raiseCredit, .handleConn]

/-- The first complete stream among the attempts before the deadline. -/
def firstComplete (streams : List ClientStream) (deadline : Nat) : Option Bytes :=
  ((streams.take maxAuthStreams).takeWhile (·.settledBy deadline)).findSome?
    (·.readToEnd authTokenMaxBytes)

lemma foldl_and_eq (l : List (UInt8 × UInt8)) (same : Bool) :
    l.foldl (fun same p => same && p.1 == p.2) same = (same && l.all fun p => p.1 == p.2) := by
  induction l generalizing same with
  | nil => exact (Bool.and_true same).symm
  | cons p l ih => rw [foldl_cons, ih, all_cons, Bool.and_assoc]

lemma all_zip_eq_iff {a b : Bytes} (h : a.length = b.length) :
    ((a.zip b).all fun p => p.1 == p.2) = true ↔ a = b := by
  induction a generalizing b with
  | nil =>
    cases b with
    | nil => simp
    | cons y b => cases h
  | cons x a ih =>
    cases b with
    | nil => cases h
    | cons y b =>
      rw [zip_cons_cons, all_cons, Bool.and_eq_true, beq_iff_eq,
        ih (Nat.succ.inj h), List.cons.injEq]

lemma ctEq_iff (a b : Bytes) : ctEq a b = true ↔ a = b := by
  unfold ctEq
  by_cases h : a.length = b.length
  · rw [if_neg (not_not.mpr h), foldl_and_eq, Bool.true_and, all_zip_eq_iff h]
  rw [if_pos h]
  constructor
  · nofun
  · rintro rfl
    exact absurd rfl h

lemma authLoop_eq_ok_iff (expected : Bytes) (deadline attempts : Nat)
    (streams : List ClientStream) :
    authLoop expected deadline attempts streams = .ok () ↔
      ((streams.take attempts).takeWhile (·.settledBy deadline)).findSome?
        (·.readToEnd authTokenMaxBytes) = some expected := by
  induction streams generalizing attempts with
  | nil =>
    cases attempts with
    | zero | succ _ => exact ⟨nofun, nofun⟩
  | cons s streams ih =>
    cases attempts with
    | zero => exact ⟨nofun, nofun⟩
    | succ n =>
      rw [authLoop, take_succ_cons, takeWhile_cons]
      cases hsettled : s.settledBy deadline with
      | false =>
        simp only [Bool.false_eq_true, if_false]
        exact ⟨nofun, nofun⟩
      | true =>
        simp only [if_true, findSome?_cons]
        cases hread : s.readToEnd authTokenMaxBytes with
        | none => exact ih n
        | some got =>
          simp only [Option.some.injEq]
          rw [← ctEq_iff]
          cases ctEq got expected with
          | false => exact ⟨nofun, nofun⟩
          | true => exact ⟨fun _ => rfl, fun _ => rfl⟩

variable {token : Bytes} {streams : List ClientStream}

lemma authenticate_eq_ok_iff (hne : token ≠ []) (streams : List ClientStream) (deadline : Nat) :
    authenticate streams token deadline = .ok () ↔ firstComplete streams deadline = some token := by
  rw [authenticate, if_neg (by rwa [List.isEmpty_iff])]
  exact authLoop_eq_ok_iff token deadline maxAuthStreams streams

lemma authLoop_eq_mismatch {expected : Bytes} {deadline attempts : Nat}
    (h : authLoop expected deadline attempts streams = .error .mismatch) :
    ∃ s ∈ streams, ∃ got, s.readToEnd authTokenMaxBytes = some got ∧ got ≠ expected := by
  induction streams generalizing attempts with
  | nil => cases attempts <;> cases h
  | cons s streams ih =>
    cases attempts with
    | zero => cases h
    | succ n =>
      rw [authLoop] at h
      split at h
      · cases hread : s.readToEnd authTokenMaxBytes with
        | none =>
          rw [hread] at h
          obtain ⟨s', hs', hgot⟩ := ih h
          exact ⟨s', mem_cons_of_mem _ hs', hgot⟩
        | some got =>
          refine ⟨s, mem_cons_self, got, hread, ?_⟩
          rintro rfl
          rw [hread] at h
          dsimp only at h
          rw [if_pos ((ctEq_iff _ _).mpr rfl)] at h
          cases h
      · cases h

/-- Only a complete stream with other content is held against the client. -/
lemma authenticate_eq_mismatch {deadline : Nat}
    (h : authenticate streams token deadline = .error .mismatch) :
    ∃ s ∈ streams, ∃ got, s.readToEnd authTokenMaxBytes = some got ∧ got ≠ token := by
  unfold authenticate at h
  split at h
  · cases h
  · exact authLoop_eq_mismatch h

/-- A connection is handled only after its client was authenticated. -/
lemma acceptTask_handleConn {incoming : Incoming} {now : Nat}
    (h : AcceptAct.handleConn ∈ acceptTask token incoming streams now) :
    authenticate streams token (now + authTimeoutMs) = .ok () ∧
      ∃ before, acceptTask token incoming streams now = before ++ [.handleConn] ∧
        AcceptAct.authenticated ∈ before ∧ AcceptAct.handleConn ∉ before := by
  have hacts : ∀ acts, establish (!token.isEmpty) incoming = some acts →
      AcceptAct.handleConn ∉ acts := by
    intro acts hacts
    cases incoming with
    | early =>
      cases hacts
      decide
    | settled =>
      simp only [establish, Option.some.injEq] at hacts
      subst hacts
      split <;> decide
    | refused | failed | timedOut => cases hacts
  unfold acceptTask at h ⊢
  cases hest : establish (!token.isEmpty) incoming with
  | none =>
    rw [hest] at h
    cases h
  | some acts =>
    have hnot := hacts acts hest
    rw [hest] at h
    cases hauth : authenticate streams token (now + authTimeoutMs) with
    | error e =>
      rw [hauth] at h
      rcases mem_append.mp h with h | h
      · exact absurd h hnot
      · exact absurd h (by decide)
    | ok =>
      refine ⟨rfl, acts ++ [.authenticated, .releasePending, .releaseIpGuard, .raiseCredit],
        by simp, by simp, by simp [hnot]⟩

end MyQuic2
