import CertBroker.Proofs.Request.Deletion
import CertBroker.Proofs.Request.Issued

namespace CertBroker.CertificateRequest

variable {r q before after current : CertificateRequest} {issuer : Issuer} {settings : Settings}
  {events : List Event} {outcome : Except Failure Action} {session : Pki.Session} {id : String}
  {answer : Pki.Request} {c : Pki.IssuedCertificate}

/-- A submission is no question about a request. -/
theorem Sends.not_polled {a : (Ask.call session (.poll id)).Answer}
    {sent : Except Failure String} (h : r.Sends issuer settings events sent) :
    (⟨.call session (.poll id), a⟩ : Event) ∉ events := by
  cases h with
  | unprepared hp => exact hp.quiet.not_mem_call
  | renewed hp => simp [hp.quiet.not_mem_call]
  | undressed hp _ hd => simp [hp.quiet.not_mem_call, hd.quiet.not_mem_call]
  | enrolled hp _ hd => simp [hp.quiet.not_mem_call, hd.quiet.not_mem_call]

/-- What a request becomes is decided by the answer about it. -/
theorem Advances.progress {result : CertificateRequest × Except Failure Action}
    (h : r.Advances issuer settings events result)
    (hp : (⟨.call session (.poll id), .ok answer⟩ : Event) ∈ events) :
    ∃ now, result = r.progress id settings answer now := by
  cases h with
  | denied => simp at hp
  | polled _ _ hpolls =>
    cases hpolls with
    | unopened ho => exact absurd hp ho.quiet.not_mem_call
    | unanswered ho => simp [ho.quiet.not_mem_call] at hp
    | @answered opening s ho given now =>
      simp only [List.mem_append, ho.quiet.not_mem_call, false_or] at hp
      rcases List.mem_cons.mp hp with hp | hp
      · cases hp
        exact ⟨now, rfl⟩
      · simp at hp
  | submitted _ _ _ hs =>
    cases hs with
    | accepted hs => simp [hs.not_polled] at hp
    | failed hs => simp [hs.not_polled] at hp
  | waiting => simp at hp

theorem accept_of_yields {stored : Except Failure Unit}
    (h : (r.reconcile settings).Yields events outcome)
    (hm : (⟨.storeRequest before after, stored⟩ : Event) ∈ events)
    (hp : (⟨.call session (.poll id), .ok answer⟩ : Event) ∈ events)
    (hs : answer.status = .completed) (hc : answer.certificate = some c) :
    r.spec.issuerRef.targetsThisGroup = true ∧ (∃ scope, r.spec.issuerRef.scope = .ok scope) ∧
      ∃ now, after = before.accept c now := by
  obtain ⟨seeking, guarding, advancing, noted, linking, issuer, current, moved, result, linked,
    henters, ha, hr, hl, rfl, rfl⟩ := works_of_stored h hm
  have hscope : ∃ scope, r.spec.issuerRef.scope = .ok scope := by
    cases henters.seeks with
    | found hscope => exact ⟨_, hscope⟩
  have hcalls : calls (seeking ++ (guarding ++ (advancing ++ (noted ++
      ⟨.storeRequest current.withStatus after, stored⟩ :: linking)))) = calls advancing := by
    simp [henters.seeks.quiet.calls, henters.guards.calls, hr.quiet.calls, hl.quiet.calls,
      Ask.isCall]
  rw [← mem_calls, hcalls, mem_calls] at hp
  obtain ⟨now, hresult⟩ := ha.progress hp
  simp only [progress, hs, hc, Prod.mk.injEq] at hresult
  obtain ⟨rfl, rfl⟩ := hresult
  cases hr
  exact ⟨henters.group, hscope, now, rfl⟩

theorem issuedLeaf_congr (h : q.currentStatus.certificate = r.currentStatus.certificate) :
    q.issuedLeaf = r.issuedLeaf := by
  unfold issuedLeaf RequestStatus.certificatePem
  rw [h]

theorem issuedLeaf_accept_empty (now : Time) (hc : c.pem = "") :
    (r.accept c now).issuedLeaf = none := by
  rw [issuedLeaf, certificatePem_accept, if_pos hc]

/-- What was stored is read back, and identifies the PKI's answer. -/
theorem identifies_issuedLeaf_accept (now : Time) (hc : c.pem ≠ "") :
    ∃ text, (r.accept c now).issuedLeaf = some text ∧ TrustChain.Identifies c.pem text := by
  refine ⟨_, ?_, TrustChain.identifies_buildOrLeaf c.pem⟩
  rw [issuedLeaf, certificatePem_accept, if_neg hc]
  simp only [Utf8.lossy_encode]

/-- Whether an answer lets a client be made for this issuer. -/
def favours (issuer : Issuer) : Event → Bool
  | ⟨.readIssuer _ _ _, .ok (some found)⟩ => found = issuer
  | ⟨.readIssuer _ _ _, _⟩ => false
  | ⟨.readSecret _ _, .ok (some secret)⟩ => (issuer.credentialsIn secret).isOk
  | ⟨.readSecret _ _, _⟩ => false
  | ⟨.openSession _, made⟩ => made.isOk
  | _ => true

theorem eq_of_favours {scope : IssuerScope} {found : Except Failure (Option Issuer)}
    (h : favours issuer ⟨q.issuerQuestion scope, found⟩ = true) : found = .ok (some issuer) := by
  cases found with
  | error f => simp [favours, issuerQuestion] at h
  | ok found =>
    cases found with
    | none => simp [favours, issuerQuestion] at h
    | some found =>
      have heq : found = issuer := by simpa [favours, issuerQuestion] using h
      rw [heq]

theorem opened_of_favours {opening : List Event} {opened : Except Failure Pki.Session}
    (hf : ∀ e ∈ opening, favours issuer e = true) (h : issuer.Opens settings opening opened) :
    ∃ session, opened = .ok session := by
  cases h with
  | unread f => simp [favours, Issuer.secretQuestion] at hf
  | missing => simp [favours, Issuer.secretQuestion] at hf
  | unusable hc => simp [favours, Issuer.secretQuestion, hc, Except.isOk, Except.toBool] at hf
  | refused hc e => simp [favours, Issuer.secretQuestion, Except.isOk, Except.toBool] at hf
  | opened hc => exact ⟨_, rfl⟩

/-- Under an issuer that revokes, what the request holds is revoked. -/
theorem Retires.calls_of_favours (h : q.Retires settings events outcome)
    (hg : q.metadata.hasFinalizer = true) (hs : ∃ scope, q.spec.issuerRef.scope = .ok scope)
    (hi : issuer.isReady = true) (hr : issuer.spec.revokeCertificates = true)
    (hf : ∀ e ∈ events, favours issuer e = true) :
    (q.issuedLeaf = none ∧ calls events = []) ∨ ∃ session leaf answer,
      q.issuedLeaf = some leaf ∧
      calls events = [⟨.call session (.revoke leaf .unspecified), answer⟩] := by
  cases h with
  | unguarded hno => exact absurd hg (by simp [hno])
  | released _ hl => exact .inl ⟨hl, by simp [Ask.isCall]⟩
  | blocked hl hseeks =>
    obtain ⟨scope, hs⟩ := hs
    cases hseeks with
    | unresolved hno => exact absurd hs (by simp [hno])
    | unread _ f => exact absurd (eq_of_favours (hf _ List.mem_cons_self)) (by simp)
    | missing => exact absurd (eq_of_favours (hf _ List.mem_cons_self)) (by simp)
  | unready _ hno =>
    cases eq_of_favours (hf _ List.mem_cons_self)
    exact absurd hi (by simp [hno])
  | spared _ _ _ hno =>
    cases eq_of_favours (hf _ List.mem_cons_self)
    exact absurd hr (by simp [hno])
  | unopened _ _ ho =>
    cases eq_of_favours (hf _ List.mem_cons_self)
    obtain ⟨session, hopened⟩ := opened_of_favours (fun e he => hf e (List.mem_cons_of_mem _ he)) ho
    cases hopened
  | @unrevoked scope _ opening leaf session e hl _ ho =>
    refine .inr ⟨session, leaf, .error e, hl, ?_⟩
    simp [issuerQuestion, Ask.isCall, ho.quiet.calls]
  | @revoked scope _ opening leaf session answer _ hl _ _ _ ho =>
    refine .inr ⟨session, leaf, answer, hl, ?_⟩
    simp [issuerQuestion, Ask.isCall, ho.quiet.calls]

/-- A certificate that one pass takes over is revoked by a later one, over the request while it is
deleted, with exactly the text that identifies it. Nothing is revoked exactly if it was empty. -/
theorem revocation_of_yields {stored : Except Failure Unit} {events' : List Event}
    {outcome' : Except Failure Action} {settings' : Settings}
    (h : (r.reconcile settings).Yields events outcome)
    (hp : (⟨.call session (.poll id), .ok answer⟩ : Event) ∈ events)
    (hs : answer.status = .completed) (hc : answer.certificate = some c)
    (hm : (⟨.storeRequest before after, stored⟩ : Event) ∈ events)
    (hq : q.currentStatus.certificate = after.currentStatus.certificate)
    (href : q.spec.issuerRef = r.spec.issuerRef) (hd : q.isDeleted = true)
    (hg : q.metadata.hasFinalizer = true) (hi : issuer.isReady = true)
    (hr : issuer.spec.revokeCertificates = true)
    (h' : (q.reconcile settings').Yields events' outcome')
    (hf : ∀ e ∈ events', favours issuer e = true) :
    (c.pem = "" → calls events' = []) ∧
    (c.pem ≠ "" → ∃ session text answer, TrustChain.Identifies c.pem text ∧
      calls events' = [⟨.call session (.revoke text .unspecified), answer⟩]) := by
  obtain ⟨hgroup, hscope, now, rfl⟩ := accept_of_yields h hm hp hs hc
  rw [← href] at hgroup hscope
  have hretires := retires_of_courses hgroup hd (courses_of_yields h')
  have hleaf := issuedLeaf_congr hq
  rcases hretires.calls_of_favours hg hscope hi hr hf with
    ⟨hl, hcalls⟩ | ⟨session, leaf, answer, hl, hcalls⟩
  · refine ⟨fun _ => hcalls, fun hne => ?_⟩
    obtain ⟨text, htext, -⟩ := identifies_issuedLeaf_accept (r := before) now hne
    simp [hleaf, htext] at hl
  · refine ⟨fun he => ?_, fun hne => ?_⟩
    · simp [hleaf, issuedLeaf_accept_empty now he] at hl
    · obtain ⟨text, htext, hidentifies⟩ := identifies_issuedLeaf_accept (r := before) now hne
      rw [hleaf, htext] at hl
      cases hl
      exact ⟨session, leaf, answer, hidentifies, hcalls⟩

/-- Two certificates, where the header of the first stands between blanks. -/
def samplePadded : String :=
  "-----BEGIN CERTIFICATE-----\n\t Serial: 7 \n\nAQID\n-----END CERTIFICATE-----\n" ++
    "-----BEGIN CERTIFICATE-----\nBAUG\n-----END CERTIFICATE-----\n"

/-- The sample after it was issued this certificate, being deleted. -/
def sampleRetired (c : Pki.IssuedCertificate) : CertificateRequest :=
  let issued := ((sampleIssuance c).state.requests.get? "shop/web").getD sampleSubmitted
  { issued with metadata := { issued.metadata with deletionTimestamp := some ⟨0, 0, 0⟩ } }

def sampleRevocation (c : Pki.IssuedCertificate) :
    Program.Run Ask Ask.Answer (Except Failure Action) Simulation.World :=
  ((sampleRetired c).reconcile {}).result.run Simulation.World.answer (sampleIssuance c).state

/-- Whether an event stores a request that holds the certificate of another one. -/
def storesCertificateOf (q : CertificateRequest) : Event → Bool
  | ⟨.storeRequest _ after, _⟩ => q.currentStatus.certificate = after.currentStatus.certificate
  | _ => false

/-- Whether an event answers that a request is completed with this certificate. -/
def completes (c : Pki.IssuedCertificate) : Event → Bool
  | ⟨.call _ (.poll _), .ok answer⟩ => answer.status = .completed && answer.certificate = some c
  | _ => false

theorem exists_of_storesCertificateOf {e : Event} (h : storesCertificateOf q e = true) :
    ∃ before after stored, e = ⟨.storeRequest before after, stored⟩ ∧
      q.currentStatus.certificate = after.currentStatus.certificate := by
  unfold storesCertificateOf at h
  split at h
  next before after stored => exact ⟨before, after, stored, rfl, by simpa using h⟩
  next => cases h

theorem exists_of_completes {e : Event} (h : completes c e = true) :
    ∃ (session : Pki.Session) (id : String) (answer : Pki.Request),
      e = ⟨.call session (.poll id), .ok answer⟩ ∧
      answer.status = .completed ∧ answer.certificate = some c := by
  unfold completes at h
  split at h
  next session id answer =>
    rw [Bool.and_eq_true, decide_eq_true_eq, decide_eq_true_eq] at h
    exact ⟨session, id, answer, rfl, h⟩
  next => cases h

/-- The first of two certificates that make no chain is revoked, its header without blanks. -/
theorem revocation_of_padded :
    let run := sampleRevocation ⟨"cert-9", samplePadded⟩
    run.state.pki.calls = [.poll "req-1", .revoke
      "-----BEGIN CERTIFICATE-----\nSerial: 7\n\nAQID\n-----END CERTIFICATE-----\n"
      .unspecified] ∧
    ∃ session text answer, TrustChain.Identifies samplePadded text ∧
      calls run.events = [⟨.call session (.revoke text .unspecified), answer⟩] := by
  have hcompletes : (sampleIssuance ⟨"cert-9", samplePadded⟩).events.any
      (completes ⟨"cert-9", samplePadded⟩) = true := by decide +kernel
  have hstores : (sampleIssuance ⟨"cert-9", samplePadded⟩).events.any
      (storesCertificateOf (sampleRetired ⟨"cert-9", samplePadded⟩)) = true := by decide +kernel
  have hfavours : ∀ e ∈ (sampleRevocation ⟨"cert-9", samplePadded⟩).events,
      favours Simulation.World.sampleIssuer e = true :=
    List.all_eq_true.mp (by decide +kernel)
  obtain ⟨polled, hpolled, hcompleted⟩ := List.any_eq_true.mp hcompletes
  obtain ⟨session, id, answer, rfl, hs, hc⟩ := exists_of_completes hcompleted
  obtain ⟨kept, hkept, hcertificate⟩ := List.any_eq_true.mp hstores
  obtain ⟨before, after, stored, rfl, hq⟩ := exists_of_storesCertificateOf hcertificate
  have hrevocation := revocation_of_yields (Attempt.run_yields _ _ _) hpolled hs hc hkept hq
    (by decide +kernel) (by decide +kernel) (by decide +kernel) (by decide +kernel)
    (by decide +kernel) (Attempt.run_yields _ _ _) hfavours
  exact ⟨by decide +kernel, hrevocation.2 (by decide +kernel)⟩

end CertBroker.CertificateRequest
