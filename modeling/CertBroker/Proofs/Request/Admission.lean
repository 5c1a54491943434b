import CertBroker.Proofs.Pass.Admission
import CertBroker.Proofs.Request.Rehearsal

namespace CertBroker

open Stored (Served)

namespace CertificateRequest

variable {r current : CertificateRequest} {issuer : Issuer} {settings : Settings} {csr : String}
  {session : Pki.Session} {events first second asked : List Event}
  {outcome : Except Failure Action}

/-- A submission among the events of a pass, and what it is made of. -/
structure Submission where
  before : List Event
  session : Pki.Session
  call : Pki.Call
  answer : call.Outcome
  after : List Event
  issuer : Issuer
  current : CertificateRequest
  csr : String

def Submission.event (s : Submission) : Event := ⟨.call s.session s.call, s.answer⟩

/-- A submission is the only call of a pass, and is made rightly. -/
structure Submission.Fits (s : Submission) (r : CertificateRequest) (asked : List Event) :
    Prop where
  placed : asked = s.before ++ s.event :: s.after
  alone : calls asked = [s.event]
  admitted : r.Admits asked s.issuer s.current
  csr : Base64.decodeText s.current.spec.request = .ok (Utf8.encode s.csr)
  call : s.current.SubmitsAs s.before s.csr s.call
  /-- What the pass goes on with was read of the object; only others have changed that since. -/
  stored : ∀ {a others i sent k}, i.Holds a r → Dispatches s.before sent →
    Served a others i sent k → ∃ m, m.Holds a s.current ∧ Served a others m [] k ∧
      (s.issuer.spec.revokeCertificates = true → m.HasFinalizer)
  guarded : ∀ {a others i sent k}, i.Holds a r → Dispatches s.before sent →
    Served a others i sent k → (∀ i j, others i j → i.HasFinalizer → j.HasFinalizer) →
      s.issuer.spec.revokeCertificates = true → k.HasFinalizer

/-- Nothing fails before the request is stored. -/
structure Unhindered (issuer : Issuer) (current : CertificateRequest) (asked : List Event) :
    Prop where
  legible : current.Legible issuer
  events : ∀ e ∈ asked.takeWhile (fun e => !e.question.storesRequest), hinders issuer e = false

theorem SubmitsAs.prepend {call : Pki.Call} (h : r.withStatus.SubmitsAs events csr call)
    (hfirst : ∀ id, ¬ r.Renews first id) : r.SubmitsAs (first ++ events) csr call := by
  rcases h with ⟨id, hrenews, rfl⟩ | ⟨hnone, hmeets, henroll⟩
  · exact .inl ⟨id, renews_append.mpr (.inr hrenews), rfl⟩
  · have hparent : r.MeetsParent (first ++ events) := MeetsParent.mono hmeets (by simp)
    refine .inr ⟨fun id hrenews => ?_, hparent, henroll⟩
    rcases renews_append.mp hrenews with hrenews | hrenews
    · exact hfirst id hrenews
    · exact hnone id hrenews

theorem SubmitsAs.isSubmission {call : Pki.Call} (h : r.SubmitsAs events csr call) :
    (Ask.call session call).isSubmission = true := by
  rcases h with ⟨_, _, rfl⟩ | ⟨_, _, _, rfl, _⟩
  · rfl
  · rfl

theorem mem_takeWhile_of_unstored {e : Event} (h : Unstored first) (he : e ∈ first) :
    e ∈ (first ++ second).takeWhile (fun e => !e.question.storesRequest) := by
  rw [List.takeWhile_append_of_pos fun e he => by simp [h e he]]
  exact List.mem_append_left _ he

/-- What a pass goes on with was read of the object as it is stored, others apart. -/
theorem stored_of_sends {seeking guarding before : List Event} {a : Api.Address}
    {others : Stored → Stored → Prop} {i k : Stored} {sent : List Sent} (hr : i.Holds a r)
    (hs : Silent seeking) (hg : r.Guards issuer guarding (.ok current)) (hq : Silent before)
    (hd : Dispatches (seeking ++ (guarding ++ before)) sent) (hserved : Served a others i sent k) :
    ∃ m, m.Holds a current ∧ Served a others m [] k ∧
      (issuer.spec.revokeCertificates = true → m.HasFinalizer) := by
  obtain ⟨m, guarded, later, rfl, _, hrest, hm, hpresent, hlater, _⟩ :=
    guarded_of_served hr hs hg hd hserved
  rw [hrest.of_silent hq] at hlater
  exact ⟨m, hm, hlater, hpresent⟩

/-- A pass that gets as far as sending a submission makes it, or is hindered. -/
theorem Reaches.fits_or_hindered (h : r.Reaches settings issuer current asked) :
    (∃ s : Submission, s.Fits r asked) ∨
      Unsubmitted asked ∧ ¬ Unhindered issuer current asked := by
  have hadmits := h.admits
  cases h with
  | @sent seeking guarding sending later _ henters _ _ _ hw hl =>
    have hs := henters.seeks
    have hg := henters.guards
    rcases hw.submits_or_hindered with ⟨before, session, call, answer, csr, rfl, hq, hcsr, hcall⟩ |
      ⟨hq, hwhy⟩
    · have hstored {a others i sent k} (hr : Stored.Holds i a r)
          (hd : Dispatches (seeking ++ (guarding ++ before)) sent)
          (hserved : Served a others i sent k) :=
        stored_of_sends hr hs.quiet.silent hg hq.silent hd hserved
      refine .inl ⟨⟨seeking ++ (guarding ++ before), session, call, answer, later, issuer, current,
        csr⟩, by simp [Submission.event], ?_, hadmits, decodeText_of_csrText hcsr, ?_, hstored, ?_⟩
      · simp [hs.quiet.calls, hg.calls, hq.calls, hl, Submission.event, Ask.isCall]
      · rw [← List.append_assoc]
        refine hcall.prepend fun id hrenews => ?_
        rcases renews_append.mp hrenews with hrenews | hrenews
        · exact hs.not_renews hrenews
        · exact hg.not_renews hrenews
      · intro a others i sent k hr hd hserved hkeeps hrevokes
        obtain ⟨m, _, hlater, hpresent⟩ := hstored hr hd hserved
        exact hlater.invariant hkeeps (by simp) (hpresent hrevokes)
    · have hlast := never_append.mpr ⟨hq.unsubmitted, unsubmitted_of_calls hl⟩
      have hguarding := never_append.mpr ⟨hg.unsubmitted, hlast⟩
      -- What hinders the pass is asked before the request is stored.
      refine .inr ⟨never_append.mpr ⟨hs.quiet.unsubmitted, hguarding⟩, fun hu => ?_⟩
      obtain ⟨e, he, hh⟩ := hwhy hu.legible
      have hunstored : Unstored (seeking ++ (guarding ++ sending)) := by
        simp [hs.quiet.silent.unstored, hg.unstored, hq.silent.unstored]
      have hmem : e ∈ seeking ++ (guarding ++ sending) := by simp [he]
      have hspared := hu.events e (by simpa using mem_takeWhile_of_unstored hunstored hmem)
      exact absurd hh (by simp [hspared])

/-- A pass submits the request only if it is admitted, and in the way that fits it; and it submits a
request that is admitted, unless something fails on the way. -/
theorem submission_of_yields (h : (r.reconcile settings).Yields asked outcome) :
    ((∃ e ∈ asked, e.question.isSubmission = true) → ∃ s : Submission, s.Fits r asked) ∧
    ∀ issuer current, r.Admits asked issuer current → Unhindered issuer current asked →
      ∃ e, e.question.isSubmission = true ∧ calls asked = [e] := by
  have hcourses := courses_of_yields h
  constructor
  · rintro ⟨e, he, hsub⟩
    have hmore : ¬ Unsubmitted asked := fun hno => absurd hsub (by simp [hno e he])
    rcases hcourses.works_or_unstored with hworks | ⟨hno, _⟩
    · rcases hworks.reaches_or_unsubmitted with ⟨issuer, current, hreaches⟩ | hno
      · rcases hreaches.fits_or_hindered with hfits | ⟨hno, _⟩
        · exact hfits
        · exact absurd hno hmore
      · exact absurd hno hmore
    · exact absurd hno hmore
  · intro issuer current hadmits hu
    rcases (hcourses.reaches_of_admits hadmits).fits_or_hindered with ⟨s, hfits⟩ | ⟨_, hno⟩
    · exact ⟨s.event, hfits.call.isSubmission, hfits.alone⟩
    · exact absurd hu hno

/-- An approved request of a Certificate. -/
def sampleApproved : CertificateRequest where
  metadata := {
    name := some "web", ns := some "shop", finalizers := some [finalizerName]
    annotations := some (Dict.empty.insert Annotation.certificateName "web-tls") }
  spec := { request := "QQ==", issuerRef := ⟨"pki", none, some groupName⟩ }
  status := some { conditions := [⟨ConditionType.approved, .yes, none, none, none⟩] }

theorem sampleApproved_csrText : sampleApproved.csrText = .ok "A" := by
  have hread : sampleApproved.csrText.toOption = some "A" := by decide +kernel
  cases hcsr : sampleApproved.csrText with
  | error => simp [hcsr, Except.toOption] at hread
  | ok csr =>
    rw [hcsr] at hread
    cases hread
    rfl

/-- The Certificate is issued anew, so that the certificate it has is renewed. -/
theorem submission_of_renewal :
    let run := (sampleApproved.reconcile {}).result.run Simulation.World.answer .sample
    (sampleApproved.reconcile {}).Yields run.events run.value ∧
      run.state.pki.calls = [.renew "cert-0" "A"] ∧
      (∃ s : Submission, s.Fits sampleApproved run.events) ∧
      ∃ e, e.question.isSubmission = true ∧ calls run.events = [e] := by
  intro run
  have hrun : (sampleApproved.reconcile {}).Yields run.events run.value :=
    Attempt.run_yields _ _ _
  obtain ⟨honly, hall⟩ := submission_of_yields hrun
  have hadmits : sampleApproved.Admits run.events Simulation.World.sampleIssuer sampleApproved :=
    ⟨rfl, rfl, ⟨.namespaced, rfl, rfl⟩, by decide, .inl ⟨by decide, rfl⟩, by decide, by decide,
      by decide, by decide⟩
  have hunhindered : Unhindered Simulation.World.sampleIssuer sampleApproved run.events :=
    ⟨⟨"A", sampleApproved_csrText, fun _ hchecker => by cases hchecker⟩,
      by decide +kernel⟩
  have hsubmitted : run.events.any (fun e => e.question.isSubmission) = true := by decide +kernel
  exact ⟨hrun, by decide +kernel, honly (List.any_eq_true.mp hsubmitted),
    hall _ _ hadmits hunhindered⟩

end CertificateRequest

end CertBroker
