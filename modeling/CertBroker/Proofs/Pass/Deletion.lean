import CertBroker.Pass.Deletion
import CertBroker.Proofs.Pass.Session

namespace CertBroker.CertificateRequest

variable {r : CertificateRequest} {issuer : Issuer} {settings : Settings} {events : List Event}

/-- What can come of a deletion before its issuer is looked for. -/
inductive Releases (r : CertificateRequest) : List Event → Except Failure Bool → Prop
  | unguarded (h : r.metadata.hasFinalizer = false) : Releases r [] (.ok true)
  | kept (h : r.metadata.hasFinalizer = true) (hl : r.issuedLeaf.isSome = true) :
      Releases r [] (.ok false)
  | removed (h : r.metadata.hasFinalizer = true) (hl : r.issuedLeaf = none) :
      Releases r [⟨.removeFinalizer r, .ok ()⟩] (.ok true)
  | failed (h : r.metadata.hasFinalizer = true) (hl : r.issuedLeaf = none) (f : Failure) :
      Releases r [⟨.removeFinalizer r, .error f⟩] (.error f)

theorem releases_of_yields {outcome : Except Failure Bool}
    (h : r.releaseWithoutIssuer.Yields events outcome) : r.Releases events outcome := by
  unfold releaseWithoutIssuer at h
  split at h
  next hf =>
    obtain ⟨rfl, rfl⟩ := Attempt.yields_pure.mp h
    exact .unguarded (by simpa using hf)
  next hf =>
    have hf : r.metadata.hasFinalizer = true := by simpa using hf
    split at h
    next hl =>
      obtain ⟨rfl, rfl⟩ := Attempt.yields_pure.mp h
      exact .kept hf hl
    next hl =>
      have hl : r.issuedLeaf = none := by simpa using hl
      simp only [Attempt.yields_bind, Attempt.yields_removeFinalizer, Attempt.yields_pure] at h
      rcases h with ⟨f, rfl, rfl⟩ | ⟨_, _, _, rfl, rfl, rfl, rfl⟩
      · exact .failed hf hl f
      · exact .removed hf hl

theorem Releases.unsubmitted {outcome : Except Failure Bool} (h : r.Releases events outcome) :
    Unsubmitted events := by
  cases h <;> simp [Ask.isSubmission]

theorem Releases.unstored {outcome : Except Failure Bool} (h : r.Releases events outcome) :
    Unstored events := by
  cases h <;> simp [Ask.storesRequest]

theorem Releases.alone {outcome : Except Failure Bool} (h : r.Releases events outcome) :
    Alone events := by
  cases h <;> simp [Ask.concernsParent]

/-- The only change of a request is that the finalizer goes. -/
theorem Releases.change {outcome : Except Failure Bool} (h : r.Releases events outcome) :
    ∀ e ∈ events, e.question.changesRequest = true → e.question = .removeFinalizer r := by
  cases h <;> simp

/-- An answer to a revocation after which the certificate counts as done with. -/
def Settled (answer : Except PkiError Unit) : Prop :=
  ∀ e, answer = .error e → e.isRejection = true

/-- What can come of a revocation. -/
inductive Revokes (r : CertificateRequest) (issuer : Issuer) (settings : Settings) :
    List Event → Except Failure Unit → Prop
  | nothing (hl : r.issuedLeaf = none) : Revokes r issuer settings [] (.ok ())
  | unopened {leaf : String} {opening : List Event} {f : Failure} (hl : r.issuedLeaf = some leaf)
      (ho : issuer.Opens settings opening (.error f)) :
      Revokes r issuer settings opening (.error f)
  | settled {leaf : String} {opening : List Event} {session : Pki.Session}
      {answer : Except PkiError Unit} (hl : r.issuedLeaf = some leaf)
      (ho : issuer.Opens settings opening (.ok session)) (ha : Settled answer) :
      Revokes r issuer settings (opening ++ [⟨.call session (.revoke leaf .unspecified), answer⟩])
        (.ok ())
  | failed {leaf : String} {opening : List Event} {session : Pki.Session} {e : PkiError}
      (hl : r.issuedLeaf = some leaf) (ho : issuer.Opens settings opening (.ok session))
      (he : e.isRejection = false) :
      Revokes r issuer settings (opening ++ [⟨.call session (.revoke leaf .unspecified), .error e⟩])
        (.error (.pki e))

theorem Revokes.unsubmitted {outcome : Except Failure Unit}
    (h : r.Revokes issuer settings events outcome) : Unsubmitted events := by
  cases h with
  | nothing => simp
  | unopened _ ho => exact ho.quiet.unsubmitted
  | settled _ ho => simp [ho.quiet.unsubmitted, Ask.isSubmission]
  | failed _ ho => simp [ho.quiet.unsubmitted, Ask.isSubmission]

theorem Revokes.silent {outcome : Except Failure Unit}
    (h : r.Revokes issuer settings events outcome) : Silent events := by
  cases h with
  | nothing => simp
  | unopened _ ho => exact ho.quiet.silent
  | settled _ ho => simp [ho.quiet.silent, Ask.changesRequest]
  | failed _ ho => simp [ho.quiet.silent, Ask.changesRequest]

theorem Revokes.alone {outcome : Except Failure Unit}
    (h : r.Revokes issuer settings events outcome) : Alone events := by
  cases h with
  | nothing => simp
  | unopened _ ho => exact ho.alone
  | settled _ ho => simp [ho.alone, Ask.concernsParent]
  | failed _ ho => simp [ho.alone, Ask.concernsParent]

theorem revokes_of_yields {outcome : Except Failure Unit}
    (h : (r.revoke issuer settings).Yields events outcome) :
    r.Revokes issuer settings events outcome := by
  unfold revoke at h
  split at h
  next hl =>
    obtain ⟨rfl, rfl⟩ := Attempt.yields_pure.mp h
    exact .nothing hl
  next leaf hl =>
    simp only [Attempt.yields_bind, Attempt.yields_lift] at h
    rcases h with ⟨f, ho, rfl⟩ | ⟨session, opening, _, rfl, ho, h⟩
    · exact .unopened hl (Issuer.opens_of_yields ho)
    have ho := Issuer.opens_of_yields ho
    rcases h with ⟨f, ⟨_, _, hf⟩, rfl⟩ | ⟨answer, _, _, rfl, ⟨_, ha, hok⟩, h⟩
    · exact absurd hf (by simp)
    cases hok
    cases Ask.trace_put_iff.mp ha
    cases answer with
    | ok =>
      obtain ⟨rfl, rfl⟩ := Attempt.yields_pure.mp h
      exact .settled hl ho (by simp [Settled])
    | error e =>
      simp only at h
      split at h
      next he =>
        obtain ⟨rfl, rfl⟩ := Attempt.yields_pure.mp h
        exact .settled hl ho (by simpa [Settled] using he)
      next he =>
        obtain ⟨rfl, rfl⟩ := Attempt.yields_throw.mp h
        exact .failed hl ho (by simpa using he)

/-- What can come of completing a deletion under an issuer. -/
inductive Finishes (r : CertificateRequest) (issuer : Issuer) (settings : Settings) :
    List Event → Except Failure Unit → Prop
  | unguarded (h : r.metadata.hasFinalizer = false) : Finishes r issuer settings [] (.ok ())
  | spared (h : r.metadata.hasFinalizer = true) (hr : issuer.spec.revokeCertificates = false)
      (outcome : Except Failure Unit) :
      Finishes r issuer settings [⟨.removeFinalizer r, outcome⟩] outcome
  | unrevoked {events : List Event} {f : Failure} (h : r.metadata.hasFinalizer = true)
      (hr : issuer.spec.revokeCertificates = true)
      (hv : r.Revokes issuer settings events (.error f)) :
      Finishes r issuer settings events (.error f)
  | revoked {events : List Event} (h : r.metadata.hasFinalizer = true)
      (hr : issuer.spec.revokeCertificates = true)
      (hv : r.Revokes issuer settings events (.ok ())) (outcome : Except Failure Unit) :
      Finishes r issuer settings (events ++ [⟨.removeFinalizer r, outcome⟩]) outcome

theorem Finishes.unsubmitted {outcome : Except Failure Unit}
    (h : r.Finishes issuer settings events outcome) : Unsubmitted events := by
  cases h with
  | unguarded => simp
  | spared => simp [Ask.isSubmission]
  | unrevoked _ _ hv => exact hv.unsubmitted
  | revoked _ _ hv => simp [hv.unsubmitted, Ask.isSubmission]

theorem Finishes.unstored {outcome : Except Failure Unit}
    (h : r.Finishes issuer settings events outcome) : Unstored events := by
  cases h with
  | unguarded => simp
  | spared => simp [Ask.storesRequest]
  | unrevoked _ _ hv => exact hv.silent.unstored
  | revoked _ _ hv => simp [hv.silent.unstored, Ask.storesRequest]

theorem Finishes.alone {outcome : Except Failure Unit}
    (h : r.Finishes issuer settings events outcome) : Alone events := by
  cases h with
  | unguarded => simp
  | spared => simp [Ask.concernsParent]
  | unrevoked _ _ hv => exact hv.alone
  | revoked _ _ hv => simp [hv.alone, Ask.concernsParent]

theorem Finishes.change {outcome : Except Failure Unit}
    (h : r.Finishes issuer settings events outcome) :
    ∀ e ∈ events, e.question.changesRequest = true → e.question = .removeFinalizer r := by
  intro e he hchange
  cases h with
  | unguarded => cases he
  | spared =>
    cases List.mem_singleton.mp he
    rfl
  | unrevoked _ _ hv => exact absurd hchange (by simp [hv.silent e he])
  | revoked _ _ hv =>
    rcases List.mem_append.mp he with he | he
    · exact absurd hchange (by simp [hv.silent e he])
    · cases List.mem_singleton.mp he
      rfl

theorem finishes_of_yields {outcome : Except Failure Unit}
    (h : (r.finishDeletion issuer settings).Yields events outcome) :
    r.Finishes issuer settings events outcome := by
  unfold finishDeletion at h
  split at h
  next hf =>
    obtain ⟨rfl, rfl⟩ := Attempt.yields_pure.mp h
    exact .unguarded (by simpa using hf)
  next hf =>
    have hf : r.metadata.hasFinalizer = true := by simpa using hf
    simp only at h
    split at h
    next hr =>
      simp only [Attempt.yields_bind, Attempt.yields_removeFinalizer] at h
      rcases h with ⟨f, hv, rfl⟩ | ⟨_, revoking, _, rfl, hv, rfl⟩
      · exact .unrevoked hf hr (revokes_of_yields hv)
      · exact .revoked hf hr (revokes_of_yields hv) outcome
    next hr =>
      cases Attempt.yields_removeFinalizer.mp h
      exact .spared hf (by simpa using hr) outcome

end CertBroker.CertificateRequest
