import CertBroker.Pass.Submission
import CertBroker.Proofs.Pass.Session

namespace CertBroker.CertificateRequest

variable {r : CertificateRequest} {issuer : Issuer} {settings : Settings} {csr : String}
  {parent : Option Certificate} {events : List Event}

/-- What can come of the check of subject names, where the issuer asks for it. -/
inductive Gates (issuer : Issuer) (settings : Settings) (csr : String) :
    List Event → Except Failure Unit → Prop
  | unguarded (h : issuer.spec.dnsChecker = none) : Gates issuer settings csr [] (.ok ())
  | checked {checker : DnsChecker} {events : List Event} {outcome : Except Failure Unit}
      (h : issuer.spec.dnsChecker = some checker)
      (hr : NameCheck.Runs checker.server (Utf8.encode csr) settings.dnsCheckTimeout events
        outcome) : Gates issuer settings csr events outcome

theorem Gates.quiet {outcome : Except Failure Unit} (h : Gates issuer settings csr events outcome) :
    Quiet events := by
  cases h with
  | unguarded => simp
  | checked _ hr => exact hr.quiet

theorem Gates.unwritten {outcome : Except Failure Unit}
    (h : Gates issuer settings csr events outcome) : Unwritten events := by
  cases h with
  | unguarded => simp
  | checked _ hr => exact hr.unwritten

/-- What can come of reading the parent Certificate. -/
inductive Finds (r : CertificateRequest) :
    List Event → Except Failure (Option Certificate) → Prop
  | unnamed (h : r.metadata.parentName? = none) : Finds r [] (.ok none)
  | unread {name : String} (h : r.metadata.parentName? = some name) (f : Failure) :
      Finds r [⟨.readCertificate r.metadata.nsText name, .error f⟩] (.error f)
  | missing {name : String} (h : r.metadata.parentName? = some name) :
      Finds r [⟨.readCertificate r.metadata.nsText name, .ok none⟩]
        (.error (.missingParent (r.metadata.nsText ++ "/" ++ name)))
  | found {name : String} (h : r.metadata.parentName? = some name) (c : Certificate) :
      Finds r [⟨.readCertificate r.metadata.nsText name, .ok (some c)⟩] (.ok (some c))

theorem Finds.quiet {outcome : Except Failure (Option Certificate)} (h : r.Finds events outcome) :
    Quiet events := by
  cases h <;> simp [Ask.disturbs, Ask.changesRequest, Ask.isCall]

theorem Finds.unwritten {outcome : Except Failure (Option Certificate)}
    (h : r.Finds events outcome) : Unwritten events := by
  cases h <;> simp [Ask.isWrite]

theorem finds_of_yields {outcome : Except Failure (Option Certificate)}
    (h : r.parent.Yields events outcome) : r.Finds events outcome := by
  unfold CertificateRequest.parent at h
  split at h
  next hn =>
    obtain ⟨rfl, rfl⟩ := Attempt.yields_pure.mp h
    exact .unnamed hn
  next name hn =>
    simp only [Attempt.yields_bind, Attempt.yields_certificate] at h
    rcases h with ⟨f, rfl, rfl⟩ | ⟨found, _, rest, rfl, rfl, h⟩
    · exact .unread hn f
    cases found with
    | none =>
      obtain ⟨rfl, rfl⟩ := Attempt.yields_throw.mp h
      exact .missing hn
    | some c =>
      obtain ⟨rfl, rfl⟩ := Attempt.yields_pure.mp h
      exact .found hn c

/-- What can come of reading the annotations of the Ingress that owns the parent. -/
inductive Dresses (r : CertificateRequest) (parent : Option Certificate) :
    List Event → Except Failure (Option (Dict String)) → Prop
  | unowned (h : parent.bind Certificate.owningIngress = none) : Dresses r parent [] (.ok none)
  | unread {name : String} (h : parent.bind Certificate.owningIngress = some name) (f : Failure) :
      Dresses r parent [⟨.readIngress r.metadata.nsText name, .error f⟩] (.error f)
  | found {name : String} (h : parent.bind Certificate.owningIngress = some name)
      (ingress : Option Ingress) :
      Dresses r parent [⟨.readIngress r.metadata.nsText name, .ok ingress⟩]
        (.ok (ingress.bind (·.metadata.annotations)))

theorem Dresses.quiet {outcome : Except Failure (Option (Dict String))}
    (h : r.Dresses parent events outcome) : Quiet events := by
  cases h <;> simp [Ask.disturbs, Ask.changesRequest, Ask.isCall]

theorem Dresses.unwritten {outcome : Except Failure (Option (Dict String))}
    (h : r.Dresses parent events outcome) : Unwritten events := by
  cases h <;> simp [Ask.isWrite]

theorem dresses_of_yields {outcome : Except Failure (Option (Dict String))}
    (h : (r.ingressAnnotations parent).Yields events outcome) :
    r.Dresses parent events outcome := by
  unfold ingressAnnotations at h
  split at h
  next hn =>
    obtain ⟨rfl, rfl⟩ := Attempt.yields_pure.mp h
    exact .unowned hn
  next name hn =>
    simp only [Attempt.yields_bind, Attempt.yields_ingress, Attempt.yields_pure] at h
    rcases h with ⟨f, rfl, rfl⟩ | ⟨ingress, _, rest, rfl, rfl, rfl, rfl⟩
    · exact .unread hn f
    · exact .found hn ingress

/-- What can come of everything before the submission itself. -/
inductive Prepares (r : CertificateRequest) (issuer : Issuer) (settings : Settings) :
    List Event → Except Failure (String × Option Certificate × Pki.Session) → Prop
  | undecoded {f : Failure} (h : r.csrText = .error f) : Prepares r issuer settings [] (.error f)
  | barred {csr : String} {gate : List Event} {f : Failure} (h : r.csrText = .ok csr)
      (hg : Gates issuer settings csr gate (.error f)) : Prepares r issuer settings gate (.error f)
  | orphaned {csr : String} {gate family : List Event} {f : Failure} (h : r.csrText = .ok csr)
      (hg : Gates issuer settings csr gate (.ok ())) (hp : r.Finds family (.error f)) :
      Prepares r issuer settings (gate ++ family) (.error f)
  | unopened {csr : String} {gate family opening : List Event} {parent : Option Certificate}
      {f : Failure} (h : r.csrText = .ok csr) (hg : Gates issuer settings csr gate (.ok ()))
      (hp : r.Finds family (.ok parent)) (ho : issuer.Opens settings opening (.error f)) :
      Prepares r issuer settings (gate ++ (family ++ opening)) (.error f)
  | prepared {csr : String} {gate family opening : List Event} {parent : Option Certificate}
      {session : Pki.Session} (h : r.csrText = .ok csr)
      (hg : Gates issuer settings csr gate (.ok ())) (hp : r.Finds family (.ok parent))
      (ho : issuer.Opens settings opening (.ok session)) :
      Prepares r issuer settings (gate ++ (family ++ opening)) (.ok (csr, parent, session))

theorem Prepares.quiet {outcome : Except Failure (String × Option Certificate × Pki.Session)}
    (h : r.Prepares issuer settings events outcome) : Quiet events := by
  cases h with
  | undecoded => simp
  | barred _ hg => exact hg.quiet
  | orphaned _ hg hp => simp [hg.quiet, hp.quiet]
  | unopened _ hg hp ho => simp [hg.quiet, hp.quiet, ho.quiet]
  | prepared _ hg hp ho => simp [hg.quiet, hp.quiet, ho.quiet]

theorem Prepares.unwritten
    {outcome : Except Failure (String × Option Certificate × Pki.Session)}
    (h : r.Prepares issuer settings events outcome) : Unwritten events := by
  cases h with
  | undecoded => simp
  | barred _ hg => exact hg.unwritten
  | orphaned _ hg hp => simp [hg.unwritten, hp.unwritten]
  | unopened _ hg hp ho => simp [hg.unwritten, hp.unwritten, ho.unwritten]
  | prepared _ hg hp ho => simp [hg.unwritten, hp.unwritten, ho.unwritten]

/-- What can come of sending a submission. -/
inductive Sends (r : CertificateRequest) (issuer : Issuer) (settings : Settings) :
    List Event → Except Failure String → Prop
  | unprepared {events : List Event} {f : Failure}
      (h : r.Prepares issuer settings events (.error f)) : Sends r issuer settings events (.error f)
  | renewed {events : List Event} {csr id : String} {parent : Option Certificate}
      {session : Pki.Session} (h : r.Prepares issuer settings events (.ok (csr, parent, session)))
      (ht : parent.bind Certificate.renewalTarget = some id) (answer : Except PkiError String) :
      Sends r issuer settings (events ++ [⟨.call session (.renew id csr), answer⟩])
        (answer.mapError Failure.pki)
  | undressed {events dressing : List Event} {csr : String} {parent : Option Certificate}
      {session : Pki.Session} {f : Failure}
      (h : r.Prepares issuer settings events (.ok (csr, parent, session)))
      (ht : parent.bind Certificate.renewalTarget = none)
      (hd : r.Dresses parent dressing (.error f)) :
      Sends r issuer settings (events ++ dressing) (.error f)
  | enrolled {events dressing : List Event} {csr : String} {parent : Option Certificate}
      {session : Pki.Session} {ingress : Option (Dict String)}
      (h : r.Prepares issuer settings events (.ok (csr, parent, session)))
      (ht : parent.bind Certificate.renewalTarget = none)
      (hd : r.Dresses parent dressing (.ok ingress)) (answer : Except PkiError String) :
      Sends r issuer settings
        (events ++ (dressing ++
          [⟨.call session (.enroll (enrollment issuer.spec parent ingress csr)), answer⟩]))
        (answer.mapError Failure.pki)

theorem Sends.silent {outcome : Except Failure String}
    (h : r.Sends issuer settings events outcome) : Silent events := by
  cases h with
  | unprepared hp => exact hp.quiet.silent
  | renewed hp => simp [hp.quiet.silent, Ask.changesRequest]
  | undressed hp _ hd => simp [hp.quiet.silent, hd.quiet.silent]
  | enrolled hp _ hd => simp [hp.quiet.silent, hd.quiet.silent, Ask.changesRequest]

theorem Sends.unwritten {outcome : Except Failure String}
    (h : r.Sends issuer settings events outcome) : Unwritten events := by
  cases h with
  | unprepared hp => exact hp.unwritten
  | renewed hp => simp [hp.unwritten, Ask.isWrite]
  | undressed hp _ hd => simp [hp.unwritten, hd.unwritten]
  | enrolled hp _ hd => simp [hp.unwritten, hd.unwritten, Ask.isWrite]

/-- What is accepted is the id the submission answers. -/
theorem Sends.accepted {outcome : Except Failure String}
    (h : r.Sends issuer settings events outcome) : accepted events = outcome.toOption.toList := by
  cases h with
  | unprepared hp => exact accepted_of_unsubmitted hp.quiet.unsubmitted
  | renewed hp _ answer =>
    rw [accepted_append, accepted_of_unsubmitted hp.quiet.unsubmitted]
    cases answer <;> rfl
  | undressed hp _ hd =>
    rw [accepted_append, accepted_of_unsubmitted hp.quiet.unsubmitted,
      accepted_of_unsubmitted hd.quiet.unsubmitted]
    rfl
  | enrolled hp _ hd answer =>
    rw [accepted_append, accepted_append, accepted_of_unsubmitted hp.quiet.unsubmitted,
      accepted_of_unsubmitted hd.quiet.unsubmitted]
    cases answer <;> rfl

theorem sends_of_call {events : List Event} {session : Pki.Session}
    (hp : r.Prepares issuer settings events (.ok (csr, parent, session)))
    {rest : List Event} {outcome : Except Failure String}
    (h : Attempt.Yields (match parent.bind Certificate.renewalTarget with
      | some id => session.call (.renew id csr)
      | none => do
        let ingress ← r.ingressAnnotations parent
        session.call (.enroll (enrollment issuer.spec parent ingress csr))) rest outcome) :
    r.Sends issuer settings (events ++ rest) outcome := by
  split at h
  next id ht =>
    obtain ⟨answer, rfl, rfl⟩ := Attempt.yields_call.mp h
    exact .renewed hp ht answer
  next ht =>
    simp only [Attempt.yields_bind] at h
    rcases h with ⟨f, hd, rfl⟩ | ⟨ingress, dressing, _, rfl, hd, h⟩
    · exact .undressed hp ht (dresses_of_yields hd)
    · obtain ⟨answer, rfl, rfl⟩ := Attempt.yields_call.mp h
      exact .enrolled hp ht (dresses_of_yields hd) answer

theorem sends_of_gate {gate rest : List Event} {outcome : Except Failure String}
    (hc : r.csrText = .ok csr) (hg : Gates issuer settings csr gate (.ok ()))
    (h : Attempt.Yields (do
      let parent ← r.parent
      let session ← issuer.openSession settings
      match parent.bind Certificate.renewalTarget with
      | some id => session.call (.renew id csr)
      | none => do
        let ingress ← r.ingressAnnotations parent
        session.call (.enroll (enrollment issuer.spec parent ingress csr))) rest outcome) :
    r.Sends issuer settings (gate ++ rest) outcome := by
  rcases Attempt.yields_bind.mp h with ⟨f, hp, rfl⟩ | ⟨parent, family, _, rfl, hp, h⟩
  · exact .unprepared (.orphaned hc hg (finds_of_yields hp))
  have hp := finds_of_yields hp
  rcases Attempt.yields_bind.mp h with ⟨f, ho, rfl⟩ | ⟨session, opening, _, rfl, ho, h⟩
  · exact .unprepared (.unopened hc hg hp (Issuer.opens_of_yields ho))
  have hready := Prepares.prepared hc hg hp (Issuer.opens_of_yields ho)
  simpa only [List.append_assoc] using sends_of_call hready h

theorem sends_of_yields {outcome : Except Failure String}
    (h : (r.send issuer settings).Yields events outcome) :
    r.Sends issuer settings events outcome := by
  simp only [send, Attempt.yields_bind, Attempt.yields_ofExcept] at h
  rcases h with ⟨f, ⟨rfl, hc⟩, rfl⟩ | ⟨csr, _, rest, rfl, ⟨rfl, hc⟩, h⟩
  · exact .unprepared (.undecoded hc.symm)
  rw [List.nil_append]
  split at h
  next checker hd =>
    rcases Attempt.yields_bind.mp h with ⟨f, hg, rfl⟩ | ⟨_, gate, rest, rfl, hg, h⟩
    · exact .unprepared (.barred hc.symm (.checked hd (NameCheck.runs_of_yields hg)))
    · exact sends_of_gate hc.symm (.checked hd (NameCheck.runs_of_yields hg)) h
  next hd => exact sends_of_gate hc.symm (.unguarded hd) h

end CertBroker.CertificateRequest
