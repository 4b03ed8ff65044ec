import MyQuic2.Core.Bytes

/-!
# Sending half of a stream

What the program relies on in the streams of quinn, which is not its own code. A stream
carries the bytes written to it until it is finished or reset. Giving up the handle of
a stream that is neither finishes it. The receiver reads a stream to its end only if it
was finished and not reset.
-/

namespace MyQuic2

structure SendStream where
  data : Bytes
  finished : Bool
  wasReset : Bool

namespace SendStream

def opened : SendStream := ⟨[], false, false⟩

def closed (s : SendStream) : Bool := s.finished || s.wasReset

variable (s : SendStream) (stopped : Bool)

def write (b : Bytes) : SendStream :=
  if s.closed then s else { s with data := s.data ++ b }

def finish : SendStream :=
  if s.closed then s else { s with finished := true }

def reset : SendStream := { s with wasReset := true }

/-- Give up the handle. A stream that the receiver has stopped is reset, any other one that is still
open is finished. -/
def release : SendStream :=
  if s.closed then s else if stopped then s.reset else s.finish

/-- The receiver can read the stream to its end. -/
def complete : Bool := s.finished && !s.wasReset

@[simp] lemma complete_reset : s.reset.complete = false := by
  simp [complete, reset]

@[simp] lemma data_finish : s.finish.data = s.data := by
  unfold finish
  split <;> rfl

@[simp] lemma data_release : (s.release stopped).data = s.data := by
  unfold release
  split
  · rfl
  split
  · rfl
  · exact data_finish s

lemma release_of_reset : s.reset.release stopped = s.reset :=
  if_pos (Bool.or_true _)

end SendStream

end MyQuic2
