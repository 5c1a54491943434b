import CertBroker.Proofs.Pass.Advance
import CertBroker.Proofs.Pass.Deletion
import CertBroker.Proofs.Pass.Outcome
import CertBroker.Simulation.World

namespace CertBroker.CertificateRequest

variable {r : CertificateRequest} {issuer : Issuer} {settings : Settings} {events : List Event}
  {outcome : Except Failure Action}

def issuerQuestion (r : CertificateRequest) (scope : IssuerScope) : Ask :=
  .readIssuer scope r.metadata.nsText r.spec.issuerRef.name

@[simp] theorem issuerQuestion_ne_removeFinalizer (r q : CertificateRequest)
    (scope : IssuerScope) : r.issuerQuestion scope ≠ .removeFinalizer q := by
  simp [issuerQuestion]

/-- What can come of looking for the issuer. -/
inductive Seeks (r : CertificateRequest) : List Event → Except Failure Issuer → Prop
  | unresolved {e : ReferenceError} (h : r.spec.issuerRef.scope = .error e) :
      Seeks r [] (.error (.issuerRef e))
  | unread {scope : IssuerScope} (h : r.spec.issuerRef.scope = .ok scope) (f : Failure) :
      Seeks r [⟨r.issuerQuestion scope, .error f⟩] (.error f)
  | missing {scope : IssuerScope} (h : r.spec.issuerRef.scope = .ok scope) :
      Seeks r [⟨r.issuerQuestion scope, .ok none⟩]
        (.error (.issuerNotFound (scope.kind ++ " " ++ r.spec.issuerRef.name)))
  | found {scope : IssuerScope} (h : r.spec.issuerRef.scope = .ok scope) (issuer : Issuer) :
      Seeks r [⟨r.issuerQuestion scope, .ok (some issuer)⟩] (.ok issuer)

theorem Seeks.quiet {outcome : Except Failure Issuer} (h : r.Seeks events outcome) :
    Quiet events := by
  cases h <;> simp [issuerQuestion, Ask.disturbs, Ask.changesRequest, Ask.isCall]

theorem Seeks.unwritten {outcome : Except Failure Issuer} (h : r.Seeks events outcome) :
    Unwritten events := by
  cases h <;> simp [issuerQuestion, Ask.isWrite]

theorem Seeks.alone {outcome : Except Failure Issuer} (h : r.Seeks events outcome) :
    Alone events := by
  cases h <;> simp [issuerQuestion, Ask.concernsParent]

theorem seeks_of_yields {outcome : Except Failure Issuer}
    (h : r.findIssuer.Yields events outcome) : r.Seeks events outcome := by
  simp only [findIssuer, Attempt.yields_bind, Attempt.yields_ofExcept,
    Attempt.yields_issuer] at h
  rcases h with ⟨f, ⟨rfl, hs⟩, rfl⟩ | ⟨scope, _, _, rfl, ⟨rfl, hs⟩, h⟩
  · obtain ⟨e, he, rfl⟩ := mapError_eq_error.mp hs.symm
    exact .unresolved he
  have hs := mapError_eq_ok.mp hs.symm
  rcases h with ⟨f, rfl, rfl⟩ | ⟨found, _, rest, rfl, rfl, h⟩
  · exact .unread hs f
  cases found with
  | none =>
    obtain ⟨rfl, rfl⟩ := Attempt.yields_throw.mp h
    exact .missing hs
  | some issuer =>
    obtain ⟨rfl, rfl⟩ := Attempt.yields_pure.mp h
    exact .found hs issuer

def lacksFinalizer (r : CertificateRequest) (issuer : Issuer) : Bool :=
  issuer.spec.revokeCertificates && !r.metadata.hasFinalizer

/-- What can come of making sure of the finalizer; a write answers the request as stored. -/
inductive Guards (r : CertificateRequest) (issuer : Issuer) :
    List Event → Except Failure CertificateRequest → Prop
  | content (h : r.lacksFinalizer issuer = false) : Guards r issuer [] (.ok r)
  | written (h : r.lacksFinalizer issuer = true) (answer : Except Failure CertificateRequest) :
      Guards r issuer [⟨.addFinalizer r, answer⟩] answer

theorem Guards.calls {outcome : Except Failure CertificateRequest}
    (h : r.Guards issuer events outcome) : calls events = [] := by
  cases h <;> simp [Ask.isCall]

theorem Guards.alone {outcome : Except Failure CertificateRequest}
    (h : r.Guards issuer events outcome) : Alone events := by
  cases h <;> simp [Ask.concernsParent]

theorem guards_of_yields {outcome : Except Failure CertificateRequest}
    (h : (r.guarded issuer).Yields events outcome) : r.Guards issuer events outcome := by
  unfold guarded at h
  split at h
  next hf =>
    cases Attempt.yields_addFinalizer.mp h
    exact .written hf outcome
  next hf =>
    obtain ⟨rfl, rfl⟩ := Attempt.yields_pure.mp h
    exact .content (by simpa [lacksFinalizer] using hf)

def withStatus (r : CertificateRequest) : CertificateRequest :=
  { r with status := some r.currentStatus }

@[simp] theorem withStatus_metadata (r : CertificateRequest) :
    r.withStatus.metadata = r.metadata := rfl

@[simp] theorem withStatus_currentStatus (r : CertificateRequest) :
    r.withStatus.currentStatus = r.currentStatus := rfl

/-- What can come of a pass over a request that is not deleted, under an issuer that is ready. -/
inductive Proceeds (r : CertificateRequest) (issuer : Issuer) (settings : Settings) :
    List Event → Except Failure Action → Prop
  | unguarded {guarding : List Event} {f : Failure} (hg : r.Guards issuer guarding (.error f)) :
      Proceeds r issuer settings guarding (.error f)
  | closed {guarding : List Event} {current : CertificateRequest} {t : Terminal}
      (hg : r.Guards issuer guarding (.ok current))
      (ht : current.currentStatus.terminal? = some t) (hn : t ≠ .issued) :
      Proceeds r issuer settings guarding (.ok .awaitChange)
  | issued {guarding linking : List Event} {current : CertificateRequest}
      {linked : Except Failure Unit} (hg : r.Guards issuer guarding (.ok current))
      (ht : current.currentStatus.terminal? = some .issued)
      (hl : current.withStatus.Links linking linked) :
      Proceeds r issuer settings (guarding ++ linking) (linked.map fun _ => .awaitChange)
  | worked {guarding advancing noted linking : List Event}
      {current after reflected : CertificateRequest} {result : Except Failure Action}
      {linked : Except Failure Unit} (hg : r.Guards issuer guarding (.ok current))
      (ht : current.currentStatus.terminal? = none)
      (ha : current.withStatus.Advances issuer settings advancing (after, result))
      (hr : after.Reflects result noted reflected) (stored : Except Failure Unit)
      (hl : reflected.Links linking linked) :
      Proceeds r issuer settings
        (guarding ++ (advancing ++ (noted ++
          ⟨.storeRequest current.withStatus reflected, stored⟩ :: linking)))
        (joinOutcome result (failuresOf stored linked))

theorem proceeds_of_yields (h : (r.proceed issuer settings).Yields events outcome) :
    r.Proceeds issuer settings events outcome := by
  simp only [proceed, Attempt.yields_bind] at h
  rcases h with ⟨f, hg, rfl⟩ | ⟨current, guarding, _, rfl, hg, h⟩
  · exact .unguarded (guards_of_yields hg)
  have hg := guards_of_yields hg
  split at h
  next t ht =>
    split at h
    next hi =>
      subst hi
      rcases Attempt.yields_bind.mp h with ⟨f, hl, rfl⟩ | ⟨_, linking, _, rfl, hl, h⟩
      · exact .issued hg ht (links_of_yields hl)
      · obtain ⟨rfl, rfl⟩ := Attempt.yields_pure.mp h
        rw [List.append_nil]
        exact .issued hg ht (links_of_yields hl)
    next hi =>
      obtain ⟨rfl, rfl⟩ := Attempt.yields_pure.mp h
      rw [List.append_nil]
      exact .closed hg ht hi
  next ht =>
    simp only [Attempt.yields_bind, Attempt.yields_lift] at h
    rcases h with ⟨f, ⟨_, _, hf⟩, _⟩ | ⟨moved, advancing, _, rfl, ⟨_, ha, hok⟩, h⟩
    · exact absurd hf (by simp)
    cases hok
    obtain ⟨noted, reflected, stored, linking, linked, rfl, hr, hl, rfl⟩ :=
      persistOutcome_yields h
    exact .worked hg ht (advances_of_trace ha) hr stored hl

/-- Whether a pass cannot do without the issuer: a deletion can, unless a certificate is held. -/
def NeedsIssuer (r : CertificateRequest) : Prop :=
  r.isDeleted = true → r.metadata.hasFinalizer = true ∧ r.issuedLeaf.isSome = true

/-- What can come of a pass over a request. -/
inductive Courses (r : CertificateRequest) (settings : Settings) :
    List Event → Except Failure Action → Prop
  | foreign (h : r.spec.issuerRef.targetsThisGroup = false) :
      Courses r settings [] (.ok .awaitChange)
  | released {events : List Event} {released : Except Failure Bool}
      (h : r.spec.issuerRef.targetsThisGroup = true) (hd : r.isDeleted = true)
      (hr : r.Releases events released) (hn : released ≠ .ok false) :
      Courses r settings events (released.map fun _ => .awaitChange)
  | unresolved {seeking : List Event} {f : Failure}
      (h : r.spec.issuerRef.targetsThisGroup = true) (hn : r.NeedsIssuer)
      (hs : r.Seeks seeking (.error f)) : Courses r settings seeking (.error f)
  | unready {seeking : List Event} {issuer : Issuer}
      (h : r.spec.issuerRef.targetsThisGroup = true) (hn : r.NeedsIssuer)
      (hs : r.Seeks seeking (.ok issuer)) (hi : issuer.isReady = false) :
      Courses r settings seeking (.ok (.requeue settings.healthCheckInterval))
  | finished {seeking finishing : List Event} {issuer : Issuer} {finished : Except Failure Unit}
      (h : r.spec.issuerRef.targetsThisGroup = true) (hd : r.isDeleted = true)
      (hn : r.NeedsIssuer) (hs : r.Seeks seeking (.ok issuer)) (hi : issuer.isReady = true)
      (hf : r.Finishes issuer settings finishing finished) :
      Courses r settings (seeking ++ finishing) (finished.map fun _ => .awaitChange)
  | proceeded {seeking proceeding : List Event} {issuer : Issuer}
      {outcome : Except Failure Action} (h : r.spec.issuerRef.targetsThisGroup = true)
      (hd : r.isDeleted = false) (hs : r.Seeks seeking (.ok issuer))
      (hi : issuer.isReady = true) (hp : r.Proceeds issuer settings proceeding outcome) :
      Courses r settings (seeking ++ proceeding) outcome

theorem courses_of_underIssuer (hg : r.spec.issuerRef.targetsThisGroup = true)
    (hn : r.NeedsIssuer) (h : (r.underIssuer settings).Yields events outcome) :
    r.Courses settings events outcome := by
  simp only [underIssuer, Attempt.yields_bind] at h
  rcases h with ⟨f, hs, rfl⟩ | ⟨issuer, seeking, _, rfl, hs, h⟩
  · exact .unresolved hg hn (seeks_of_yields hs)
  have hs := seeks_of_yields hs
  split at h
  next hi =>
    obtain ⟨rfl, rfl⟩ := Attempt.yields_pure.mp h
    rw [List.append_nil]
    exact .unready hg hn hs (by simpa using hi)
  next hi =>
    have hi : issuer.isReady = true := by simpa using hi
    split at h
    next hd =>
      rcases Attempt.yields_bind.mp h with ⟨f, hf, rfl⟩ | ⟨_, finishing, _, rfl, hf, h⟩
      · exact .finished hg hd hn hs hi (finishes_of_yields hf)
      · obtain ⟨rfl, rfl⟩ := Attempt.yields_pure.mp h
        rw [List.append_nil]
        exact .finished hg hd hn hs hi (finishes_of_yields hf)
    next hd => exact .proceeded hg (by simpa using hd) hs hi (proceeds_of_yields h)

theorem courses_of_yields (h : (r.reconcile settings).Yields events outcome) :
    r.Courses settings events outcome := by
  unfold reconcile at h
  split at h
  next hg =>
    obtain ⟨rfl, rfl⟩ := Attempt.yields_pure.mp h
    exact .foreign (by simpa using hg)
  next hg =>
    have hg : r.spec.issuerRef.targetsThisGroup = true := by simpa using hg
    split at h
    next hd =>
      rcases Attempt.yields_bind.mp h with ⟨f, hr, rfl⟩ | ⟨done, releasing, _, rfl, hr, hrest⟩
      · exact .released hg hd (releases_of_yields hr) (by simp)
      have hr := releases_of_yields hr
      cases done with
      | true =>
        obtain ⟨rfl, rfl⟩ := Attempt.yields_pure.mp hrest
        rw [List.append_nil]
        exact .released hg hd hr (by simp)
      | false =>
        cases hr with
        | kept hf hl => exact courses_of_underIssuer hg (fun _ => ⟨hf, hl⟩) hrest
    next hd => exact courses_of_underIssuer hg (fun hd' => absurd hd' hd) h

/-- A pass comes as far as working on the request, and goes on with `current`. -/
structure Enters (r : CertificateRequest) (issuer : Issuer) (current : CertificateRequest)
    (seeking guarding : List Event) : Prop where
  group : r.spec.issuerRef.targetsThisGroup = true
  alive : r.isDeleted = false
  seeks : r.Seeks seeking (.ok issuer)
  ready : issuer.isReady = true
  guards : r.Guards issuer guarding (.ok current)
  unfinished : current.currentStatus.terminal? = none

/-- A pass that works on the request: it moves it on, and stores it. -/
inductive Works (r : CertificateRequest) (settings : Settings) : List Event → Prop
  | stored {seeking guarding advancing noted linking : List Event} {issuer : Issuer}
      {current after reflected : CertificateRequest} {result : Except Failure Action}
      {linked : Except Failure Unit} (h : r.Enters issuer current seeking guarding)
      (ha : current.withStatus.Advances issuer settings advancing (after, result))
      (hr : after.Reflects result noted reflected) (stored : Except Failure Unit)
      (hl : reflected.Links linking linked) :
      Works r settings (seeking ++ (guarding ++ (advancing ++ (noted ++
        ⟨.storeRequest current.withStatus reflected, stored⟩ :: linking))))

theorem Guards.unstored {outcome : Except Failure CertificateRequest}
    (h : r.Guards issuer events outcome) : Unstored events := by
  cases h <;> simp [Ask.storesRequest]

theorem Guards.unsubmitted {outcome : Except Failure CertificateRequest}
    (h : r.Guards issuer events outcome) : Unsubmitted events := unsubmitted_of_calls h.calls

/-- A pass works on the request, or neither submits nor stores it. -/
theorem Courses.works_or_unstored (h : r.Courses settings events outcome) :
    r.Works settings events ∨ Unsubmitted events ∧ Unstored events := by
  cases h with
  | foreign => exact .inr ⟨never_nil _, never_nil _⟩
  | released _ _ hr => exact .inr ⟨hr.unsubmitted, hr.unstored⟩
  | unresolved _ _ hs => exact .inr ⟨hs.quiet.unsubmitted, hs.quiet.silent.unstored⟩
  | unready _ _ hs => exact .inr ⟨hs.quiet.unsubmitted, hs.quiet.silent.unstored⟩
  | finished _ _ _ hs _ hf =>
    exact .inr ⟨never_append.mpr ⟨hs.quiet.unsubmitted, hf.unsubmitted⟩,
      never_append.mpr ⟨hs.quiet.silent.unstored, hf.unstored⟩⟩
  | proceeded htargets hd hs hi hp =>
    have hseeking := hs.quiet.unsubmitted
    have hsilent := hs.quiet.silent.unstored
    cases hp with
    | unguarded hg =>
      exact .inr ⟨by simp [hseeking, hg.unsubmitted], by simp [hsilent, hg.unstored]⟩
    | closed hg =>
      exact .inr ⟨by simp [hseeking, hg.unsubmitted], by simp [hsilent, hg.unstored]⟩
    | issued hg _ hl =>
      exact .inr ⟨by simp [hseeking, hg.unsubmitted, hl.quiet.unsubmitted],
        by simp [hsilent, hg.unstored, hl.quiet.silent.unstored]⟩
    | worked hg ht ha hr stored hl =>
      exact .inl (.stored ⟨htargets, hd, hs, hi, hg, ht⟩ ha hr stored hl)

/-- A request is stored by a pass that works on it, after it has moved on. -/
theorem works_of_stored {before reflected : CertificateRequest} {stored : Except Failure Unit}
    (h : (r.reconcile settings).Yields events outcome)
    (hm : (⟨.storeRequest before reflected, stored⟩ : Event) ∈ events) :
    ∃ (seeking guarding advancing noted linking : List Event) (issuer : Issuer)
      (current after : CertificateRequest) (result : Except Failure Action)
      (linked : Except Failure Unit),
      r.Enters issuer current seeking guarding ∧
      current.withStatus.Advances issuer settings advancing (after, result) ∧
      after.Reflects result noted reflected ∧ reflected.Links linking linked ∧
      before = current.withStatus ∧
      events = seeking ++ (guarding ++ (advancing ++ (noted ++
        ⟨.storeRequest before reflected, stored⟩ :: linking))) := by
  rcases (courses_of_yields h).works_or_unstored with hw | ⟨-, hu⟩
  · cases hw with
    | @stored seeking guarding advancing noted linking _ _ _ _ _ _ henters ha hr answer hl =>
      have hother {part : List Event} (hu : Unstored part) :
          (⟨.storeRequest before reflected, stored⟩ : Event) ∉ part := by
        intro hmem
        exact absurd (hu _ hmem) (by simp [Ask.storesRequest])
      simp only [List.mem_append, List.mem_cons, hother henters.seeks.quiet.silent.unstored,
        hother henters.guards.unstored, hother ha.silent.unstored, hother hr.quiet.silent.unstored,
        hother hl.quiet.silent.unstored, false_or, or_false] at hm
      cases hm
      exact ⟨seeking, guarding, advancing, noted, linking, _, _, _, _, _, henters, ha, hr, hl, rfl,
        rfl⟩
  · exact absurd (hu _ hm) (by simp [Ask.storesRequest])

end CertBroker.CertificateRequest

namespace CertBroker.Simulation.World

/-- An issuer that is ready and revokes. -/
def sampleIssuer : Issuer where
  scope := .namespaced
  metadata := { name := some "pki", ns := some "shop" }
  spec := { url := "https://pki", profile := "web", authSecretName := "login"
            revokeCertificates := true }
  status := some ⟨[⟨ConditionType.ready, .yes, none, "", ""⟩]⟩

def sampleParent : Certificate where
  metadata := {
    name := some "web-tls", ns := some "shop"
    annotations := some (Dict.empty.insert Annotation.lastCertificateId "cert-0") }
  spec := { secretName := "web", issuerRef := ⟨"pki", none, some groupName⟩ }
  status := some ⟨[⟨ConditionType.issuing, .yes, some "Renewing", none, none⟩]⟩

def sample : World :=
  let secret : Secret := {
    metadata := { name := some "login", ns := some "shop" }
    data := some ((Dict.empty.insert "username" [97]).insert "password" [98]) }
  ((({} : World).putIssuer sampleIssuer).putSecret secret).putCertificate sampleParent

end CertBroker.Simulation.World
