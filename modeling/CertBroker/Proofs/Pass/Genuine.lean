import CertBroker.Pass.Talk
import CertBroker.Proofs.Pass.Yield
import CertBroker.Proofs.Pki.Addressing

namespace CertBroker

namespace Store

open Api

variable {α : Type} {a : Address}
  {sent : List (Program.Event Request fun _ => Option Http.Response)} {f : Failure}

theorem kind_asConflict (h : f.kind = .persistence) : (asConflict f).kind = .persistence := by
  unfold asConflict
  split
  next =>
    split
    next => rfl
    next => exact h
  next => exact h

theorem kind_of_path (h : a.path = .error f) : f.kind = .persistence := by
  unfold Address.path at h
  split at h
  next =>
    cases h
    rfl
  next => cases h

theorem kind_of_target {s : String} (h : target s = .error f) : f.kind = .persistence := by
  unfold target at h
  split at h
  next => cases h
  next =>
    cases h
    rfl

theorem kind_of_readAnswer {read : Json → Option α} {answer : Option Http.Response}
    (h : readAnswer read answer = .error f) : f.kind = .persistence := by
  unfold readAnswer at h
  split at h
  next =>
    cases h
    rfl
  next =>
    split at h
    next =>
      cases h
      rfl
    next =>
      split at h
      next =>
        cases h
        rfl
      next =>
        split at h
        next => cases h
        next =>
          cases h
          rfl

theorem kind_of_get {read : Json → Option α}
    (h : Program.Trace (get read a).run sent (.error f)) : f.kind = .persistence := by
  unfold Api.get at h
  rw [ExceptT.run_bind] at h
  obtain ⟨path, _, sent, rfl, hpath, h⟩ := Program.trace_bind_iff.mp h
  obtain ⟨rfl, hp⟩ := Program.trace_done_iff.mp hpath
  cases path with
  | error g =>
    obtain ⟨rfl, hf⟩ := Program.trace_done_iff.mp h
    cases hf
    exact kind_of_path hp.symm
  | ok path =>
    simp only [ExceptT.run_bind] at h
    obtain ⟨target, _, sent, rfl, htarget, h⟩ := Program.trace_bind_iff.mp h
    obtain ⟨rfl, ht⟩ := Program.trace_done_iff.mp htarget
    cases target with
    | error g =>
      obtain ⟨rfl, hf⟩ := Program.trace_done_iff.mp h
      cases hf
      exact kind_of_target ht.symm
    | ok target =>
      obtain ⟨answer, _, _, rfl, hsend, hread⟩ := Program.trace_bind_iff.mp h
      obtain ⟨rfl, hf⟩ := Program.trace_done_iff.mp hread
      exact kind_of_readAnswer hf.symm

/-- A read fails for reasons of the store only. -/
theorem kind_of_find {read : Json → Option α}
    (h : Program.Trace (find read a).run sent (.error f)) : f.kind = .persistence := by
  obtain ⟨answered, _, _, rfl, hget, hlast⟩ := Program.trace_bind_iff.mp h
  obtain ⟨rfl, hf⟩ := Program.trace_done_iff.mp hlast
  obtain ⟨g, hg, rfl⟩ := mapError_eq_error.mp hf.symm
  refine kind_asConflict ?_
  unfold findUnless at hg
  split at hg
  next => cases hg
  next =>
    split at hg
    next => cases hg
    next =>
      cases hg
      rfl
  next =>
    cases hg
    exact kind_of_get hget

end Store

/-- An answer as the store gives it, or the making of a client: a failed read is a failure of the
store, and no client is refused by the PKI. -/
def Genuine : Event → Prop
  | ⟨.readSecret _ _, .error f⟩ => f.kind = .persistence
  | ⟨.readCertificate _ _, .error f⟩ => f.kind = .persistence
  | ⟨.readIngress _ _, .error f⟩ => f.kind = .persistence
  | ⟨.openSession _, .error e⟩ => e.isRejection = false
  | _ => True

/-- An event of the store that talks to the API server, and of clients that are made of what they
are given. -/
structure Actual [HostName.Rules] (e : Event) : Prop where
  talked : ∀ p, e.question.talk? = some p → ∃ sent, Program.Trace p sent e.answer
  made : ∀ s answer, e = ⟨.openSession s, answer⟩ →
    answer = (Pki.Client.ofEndpoint s.endpoint s.credentials).map fun _ => ()

theorem Pki.Client.isRejection_of_refused [HostName.Rules] {endpoint : Endpoint}
    {c : Credentials} {error : PkiError} (h : ofEndpoint endpoint c = .error error) :
    error.isRejection = false := by
  rcases refused h with ⟨detail, rfl⟩ | ⟨rfl, -⟩
  · rfl
  · rfl

theorem Actual.genuine [HostName.Rules] {e : Event} (h : Actual e) : Genuine e := by
  unfold Genuine
  split
  next f =>
    obtain ⟨sent, htrace⟩ := h.talked _ rfl
    exact Store.kind_of_find htrace
  next f =>
    obtain ⟨sent, htrace⟩ := h.talked _ rfl
    exact Store.kind_of_find htrace
  next f =>
    obtain ⟨sent, htrace⟩ := h.talked _ rfl
    exact Store.kind_of_find htrace
  next s error =>
    have hmade := h.made s _ rfl
    cases hclient : Pki.Client.ofEndpoint s.endpoint s.credentials with
    | ok k =>
      rw [hclient] at hmade
      cases hmade
    | error refusal =>
      rw [hclient] at hmade
      cases hmade
      exact Pki.Client.isRejection_of_refused hclient
  next => trivial

end CertBroker
