import MyQuic2.Net.Stream

/-!
# The client sends its token

The token goes out on a stream of its own: in the first flight of a resumed dial,
after the handshake of a full one, and again from a monitor when the early stream
cannot be relied on. Every stream is opened and written under a deadline, and each
stage can fail or run out of time.
-/

namespace MyQuic2

/-- Times the monitor sends the token again. -/
def maxAuthResendAttempts : Nat := 5

inductive OpenResult where
  | opened
  | failed
  | timedOut

/-- How the write of the token ends; a write that fails or runs out of time has got some leading
bytes out. -/
inductive WriteResult where
  | written
  | failed (sent : Nat)
  | timedOut (sent : Nat)

/-- What happens to one attempt to send the token. -/
structure SendScript where
  opening : OpenResult
  writing : WriteResult
  /-- The server has stopped the stream when its handle is given up. -/
  stopped : Bool

inductive SendAuthError where
  | openFailed
  | openTimedOut
  | writeFailed
  | writeTimedOut

section

variable (token : Bytes) (script : SendScript)

/-- Write the token on a new stream: the handle, and the streams given up on the way. A stream whose
write did not complete is reset before its handle is given up. -/
def sendAuthStream : Except SendAuthError SendStream × List SendStream :=
  match script.opening with
  | .timedOut => (.error .openTimedOut, [])
  | .failed => (.error .openFailed, [])
  | .opened =>
    let uni := SendStream.opened
    match script.writing with
    | .written => (.ok (uni.write token).finish, [])
    | .failed sent =>
      (.error .writeFailed, [(uni.write (token.take sent)).reset.release script.stopped])
    | .timedOut sent =>
      (.error .writeTimedOut, [(uni.write (token.take sent)).reset.release script.stopped])

/-- The same without keeping the handle. -/
def sendAuth : Except SendAuthError Unit × List SendStream :=
  match sendAuthStream token script with
  | (.error e, sent) => (.error e, sent)
  | (.ok uni, sent) => (.ok (), sent ++ [uni.release script.stopped])

/-- One attempt of the monitor, and what it finds when the attempt fails. -/
structure Resend where
  script : SendScript
  connClosed : Bool
  deadlinePassed : Bool

def resendLoop (token : Bytes) : Nat → List Resend → List SendStream
  | 0, _ => []
  | _, [] => []
  | attempts + 1, r :: resends =>
    match sendAuth token r.script with
    | (.ok (), sent) => sent
    | (.error _, sent) =>
      if r.connClosed || r.deadlinePassed then sent
      else sent ++ resendLoop token attempts resends

/-- The monitor of a resumed dial. It waits for the verdict on the early data, which is missing while
the handshake is in flight. -/
def zeroRttMonitor (earlyOk : Bool) (verdict : Option Bool) (resends : List Resend) :
    List SendStream :=
  match verdict with
  | none => []
  | some accepted =>
    if accepted && earlyOk then []
    else if token.isEmpty then []
    else resendLoop token maxAuthResendAttempts resends

/-- The token in the first flight: whether it can be relied on, and the streams. -/
def earlyAuth (early : SendScript) : Bool × List SendStream :=
  if token.isEmpty then (true, [])
  else ((sendAuth token early).1.isOk, (sendAuth token early).2)

inductive HandshakeResult where
  | completed
  | failed
  | timedOut

inductive DialError where
  | lostBeforePublish
  | handshakeFailed
  | handshakeTimedOut
  | closedAfterHandshake
  | auth (e : SendAuthError)
  | notUsable

/-- What happens to one dial. -/
inductive DialScript where
  | resumed (early : SendScript) (verdict : Option Bool) (resends : List Resend)
      (aliveFirst aliveLast : Bool)
  | full (handshake : HandshakeResult) (aliveFirst : Bool) (script : SendScript) (aliveLast : Bool)

/-- The last check before a connection is handed out. -/
def publish (alive : Bool) : Except DialError Unit := if alive then .ok () else .error .notUsable

/-- A dial whose handshake is complete. -/
def dialSettled (aliveFirst : Bool) (script : SendScript) (aliveLast : Bool) :
    Except DialError Unit × List SendStream :=
  if !aliveFirst then (.error .closedAfterHandshake, [])
  else if token.isEmpty then (publish aliveLast, [])
  else
    (match (sendAuth token script).1 with
      | .error e => .error (.auth e)
      | .ok () => publish aliveLast,
      (sendAuth token script).2)

/-- One dial with its monitor: the result, and every stream on which it sent something. -/
def dialOnce : DialScript → Except DialError Unit × List SendStream
  | .resumed early verdict resends aliveFirst aliveLast =>
    let (earlyOk, sent) := earlyAuth token early
    (if !aliveFirst then .error .lostBeforePublish else publish aliveLast,
      sent ++ zeroRttMonitor token earlyOk verdict resends)
  | .full .failed _ _ _ => (.error .handshakeFailed, [])
  | .full .timedOut _ _ _ => (.error .handshakeTimedOut, [])
  | .full .completed aliveFirst script aliveLast => dialSettled token aliveFirst script aliveLast

/-- Whichever of the streams can be read to the end is the token. -/
def Whole (sent : List SendStream) : Prop :=
  ∀ s ∈ sent, s.complete = true → s.data = token

end

lemma Whole.nil (token : Bytes) : Whole token [] := nofun

lemma Whole.append {token : Bytes} {l₁ l₂ : List SendStream} (h₁ : Whole token l₁)
    (h₂ : Whole token l₂) : Whole token (l₁ ++ l₂) :=
  List.forall_mem_append.mpr ⟨h₁, h₂⟩

variable {token : Bytes} {resends : List Resend}

lemma whole_reset (s : SendStream) (stopped : Bool) : Whole token [s.reset.release stopped] := by
  intro s' hs' hcomplete
  rw [List.mem_singleton.mp hs', SendStream.release_of_reset, SendStream.complete_reset]
    at hcomplete
  cases hcomplete

open Whole

lemma whole_sendAuth (token : Bytes) (script : SendScript) :
    Whole token (sendAuth token script).2 := by
  unfold sendAuth sendAuthStream
  cases script.opening with
  | failed | timedOut => exact nil token
  | opened =>
    cases script.writing with
    | failed _ | timedOut _ => exact whole_reset _ _
    | written =>
      intro s hs _
      rw [List.mem_singleton.mp hs, SendStream.data_release, SendStream.data_finish]
      rfl

lemma whole_resendLoop (attempts : Nat) : Whole token (resendLoop token attempts resends) := by
  induction resends generalizing attempts with
  | nil => cases attempts <;> exact nil token
  | cons r resends ih =>
    cases attempts with
    | zero => exact nil token
    | succ n =>
      have hsend := whole_sendAuth token r.script
      unfold resendLoop
      cases hr : sendAuth token r.script with
      | mk result sent =>
        rw [hr] at hsend
        cases result with
        | ok => exact hsend
        | error e =>
          dsimp only
          split
          · exact hsend
          · exact hsend.append (ih n)

lemma whole_zeroRttMonitor (earlyOk : Bool) (verdict : Option Bool) :
    Whole token (zeroRttMonitor token earlyOk verdict resends) := by
  unfold zeroRttMonitor
  cases verdict with
  | none => exact nil token
  | some accepted =>
    dsimp only
    split
    · exact nil token
    split
    · exact nil token
    · exact whole_resendLoop _

lemma whole_earlyAuth (early : SendScript) : Whole token (earlyAuth token early).2 := by
  unfold earlyAuth
  split
  · exact nil token
  · exact whole_sendAuth token early

lemma whole_dialSettled (aliveFirst : Bool) (script : SendScript) (aliveLast : Bool) :
    Whole token (dialSettled token aliveFirst script aliveLast).2 := by
  unfold dialSettled
  split
  · exact nil token
  split
  · exact nil token
  · exact whole_sendAuth token script

/-- Whatever fails in a dial, no stream that can be read to the end carries anything but the whole
token. -/
lemma whole_dialOnce (token : Bytes) (script : DialScript) :
    Whole token (dialOnce token script).2 := by
  cases script with
  | resumed early verdict resends aliveFirst aliveLast =>
    exact (whole_earlyAuth early).append (whole_zeroRttMonitor _ verdict)
  | full handshake aliveFirst script aliveLast =>
    cases handshake with
    | failed | timedOut => exact nil token
    | completed => exact whole_dialSettled aliveFirst script aliveLast

end MyQuic2
