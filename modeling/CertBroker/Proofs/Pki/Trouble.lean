import CertBroker.Failure
import CertBroker.Pass.Ask
import CertBroker.Pki.Wire
import CertBroker.Proofs.Program.Trace

namespace CertBroker

namespace Pki

variable {response : Http.Response} {k : Client} {c : Call} {message : Message}

variable [HostName.Rules]

/-- A call is one message, and its outcome is what is read from the answer. -/
theorem Client.trace_call_iff (hm : k.message? c = some message)
    {events : List (Program.Event Message fun _ => Option Http.Response)} {outcome : c.Outcome} :
    Program.Trace (k.call c).run events outcome ↔
      ∃ answer, events = [⟨message, answer⟩] ∧ outcome = readAnswer c.readReply answer := by
  have hcall : (k.call c).run =
      Program.put message >>= fun answer => .done (readAnswer c.readReply answer) := by
    rw [Client.call, hm]
    rfl
  simp only [hcall, Program.trace_bind_iff, Program.trace_put_iff, Program.trace_done_iff]
  constructor
  · rintro ⟨answer, _, _, rfl, rfl, rfl, rfl⟩
    exact ⟨answer, rfl, rfl⟩
  · rintro ⟨answer, rfl, rfl⟩
    exact ⟨answer, [⟨message, answer⟩], [], rfl, rfl, rfl, rfl⟩

/-- What is not sent has no answer. -/
theorem Client.message?_of_trace {answer : Option Http.Response} {outcome : c.Outcome}
    (h : Program.Trace (k.call c).run [⟨message, answer⟩] outcome) :
    k.message? c = some message := by
  cases hm : k.message? c with
  | none =>
    have hcall : (k.call c).run = .done (.error unbuilt) := by
      rw [Client.call, hm]
      rfl
    rw [hcall] at h
    cases h
  | some sent =>
    obtain ⟨_, hevents, -⟩ := (trace_call_iff hm).mp h
    cases hevents
    rfl

/-- The outcome of a call in a session, where the PKI answers the call's message with this
response. -/
def Session.Answered (s : Session) (c : Call) (response : Http.Response) (outcome : c.Outcome) :
    Prop :=
  ∃ k message, Client.ofEndpoint s.endpoint s.credentials = .ok k ∧
    Program.Trace (k.call c).run [⟨message, some response⟩] outcome

end Pki

end CertBroker
