import CertBroker.Proofs.Pass.Survey
import CertBroker.Proofs.Pki.Trouble
import CertBroker.Proofs.Request.Admission
import CertBroker.Proofs.Request.Deletion
import CertBroker.Proofs.Request.Refusal

namespace CertBroker

namespace RequestStatus

variable {s : RequestStatus} {f : Failure} {now : Time}

end RequestStatus

namespace CertificateRequest

variable {r : CertificateRequest} {issuer : Issuer} {settings : Settings} {events : List Event}
  {outcome : Except Failure Action} {session : Pki.Session} {c : Pki.Call} {e : PkiError}

theorem not_mem_of_never {kind : Ask → Bool} (h : Never kind events) {q : Ask}
    (hq : kind q = true) (answer : q.Answer) : (⟨q, answer⟩ : Event) ∉ events := by
  intro hm
  exact absurd (h _ hm) (by simp [hq])

/-- A submission that is answered with an error is how the sending ends. -/
theorem Sends.eq_error {sent : Except Failure String} (h : r.Sends issuer settings events sent)
    (hs : (Ask.call session c).isSubmission = true)
    (hm : (⟨.call session c, .error e⟩ : Event) ∈ events) : sent = .error (.pki e) := by
  have hquiet {part : List Event} (hq : Quiet part) :
      (⟨.call session c, .error e⟩ : Event) ∉ part := not_mem_of_never hq.unsubmitted hs _
  cases h with
  | unprepared hp => exact absurd hm (hquiet hp.quiet)
  | renewed hp _ answer =>
    rcases List.mem_append.mp hm with hm | hm
    · exact absurd hm (hquiet hp.quiet)
    · cases List.mem_singleton.mp hm
      rfl
  | undressed hp _ hd =>
    rcases List.mem_append.mp hm with hm | hm
    · exact absurd hm (hquiet hp.quiet)
    · exact absurd hm (hquiet hd.quiet)
  | enrolled hp _ hd answer =>
    rcases List.mem_append.mp hm with hm | hm
    · exact absurd hm (hquiet hp.quiet)
    rcases List.mem_append.mp hm with hm | hm
    · exact absurd hm (hquiet hd.quiet)
    · cases List.mem_singleton.mp hm
      rfl

end CertificateRequest

end CertBroker
