import MyQuic2.Client.Auth
import MyQuic2.Server.Auth

/-!
# Authentication between a client and a server

The streams a client sends reach the server in some order and at some time, or
not at all. The server reads one to its end only if the client finished it and
did not reset it.
-/

namespace MyQuic2

/-- The streams the server sees are streams of the client, each complete only if it was sent so. -/
def Delivered (sent : List SendStream) (streams : List ClientStream) : Prop :=
  ∀ s ∈ streams, ∀ data, s.ending = .finished data → ∃ t ∈ sent, t.complete = true ∧ t.data = data

lemma authenticate_ne_mismatch {token : Bytes} {script : DialScript}
    {streams : List ClientStream} (h : Delivered (dialOnce token script).2 streams)
    (deadline : Nat) : authenticate streams token deadline ≠ .error .mismatch := by
  intro hmismatch
  obtain ⟨s, hs, got, hread, hne⟩ := authenticate_eq_mismatch hmismatch
  have hending : s.ending = .finished got := by
    unfold ClientStream.readToEnd at hread
    generalize s.ending = end' at hread ⊢
    cases end' with
    | finished data =>
      dsimp only at hread
      split at hread
      · cases hread
        rfl
      · cases hread
    | reset | failed =>
      cases hread
  obtain ⟨t, ht, hcomplete, hdata⟩ := h s hs got hending
  exact hne (hdata.symm.trans (whole_dialOnce token script t ht hcomplete))

/-- For every token: a client is let in exactly when its first complete stream among the attempts
before the deadline is the token; a connection is handled only after that; and in every dial, with
whatever stages failing, no stream that can be read to the end carries anything but the whole token,
so that the dialling client is never refused for a token. -/
theorem authentication_sound {token : Bytes} (hne : token ≠ []) :
    (∀ streams deadline, authenticate streams token deadline = .ok () ↔
        firstComplete streams deadline = some token) ∧
      (∀ incoming streams now, AcceptAct.handleConn ∈ acceptTask token incoming streams now →
        firstComplete streams (now + authTimeoutMs) = some token ∧
          ∃ before, acceptTask token incoming streams now = before ++ [.handleConn] ∧
            AcceptAct.authenticated ∈ before ∧ AcceptAct.handleConn ∉ before) ∧
      (∀ script, ∀ s ∈ (dialOnce token script).2, s.complete = true → s.data = token) ∧
      ∀ script streams, Delivered (dialOnce token script).2 streams →
        ∀ deadline, authenticate streams token deadline ≠ .error .mismatch := by
  refine ⟨fun streams deadline => authenticate_eq_ok_iff hne streams deadline, ?_,
    fun script => whole_dialOnce token script, fun script streams h => authenticate_ne_mismatch h⟩
  intro incoming streams now hhandle
  obtain ⟨hok, hbefore⟩ := acceptTask_handleConn hhandle
  exact ⟨(authenticate_eq_ok_iff hne streams _).mp hok, hbefore⟩

/-- The early stream is discarded and the token arrives again after the handshake. -/
theorem authentication_sound_resent :
    let streams : List ClientStream := [⟨.reset, some 3⟩, ⟨.finished [7, 8], some 9⟩]
    authenticate streams [7, 8] 5000 = .ok () ∧
      (authenticate streams [7, 8] 5000 = .ok () ↔ firstComplete streams 5000 = some [7, 8]) :=
  ⟨by rfl, (authentication_sound (by decide)).1 _ _⟩

end MyQuic2
