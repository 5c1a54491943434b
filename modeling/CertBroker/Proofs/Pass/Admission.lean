import CertBroker.Proofs.Pass.Course
import CertBroker.Proofs.Text.Utf8

namespace CertBroker

/-- The Certificate is issued anew, and has a certificate to renew. -/
structure Certificate.Renews (c : Certificate) (id : String) : Prop where
  issuing : ∃ status condition reason, c.status = some status ∧
    status.condition ConditionType.issuing = some condition ∧ condition.isTrue = true ∧
    condition.reason = some reason ∧ reason ∈ ["ManuallyTriggered", "Renewing", "Expired"]
  known : c.metadata.annotation? Annotation.lastCertificateId = some id
  nonempty : id ≠ ""

theorem CertificateStatus.issuingReason_eq_some_iff {s : CertificateStatus} {reason : String} :
    s.issuingReason = some reason ↔ ∃ condition, s.condition ConditionType.issuing = some condition ∧
      condition.isTrue = true ∧ condition.reasonText = reason := by
  unfold issuingReason
  cases s.condition ConditionType.issuing with
  | none => simp
  | some condition => simp

theorem Condition.reason_of_reasonText {c : Condition} {reason : String}
    (h : c.reasonText = reason) (hne : reason ≠ "") : c.reason = some reason := by
  unfold reasonText at h
  cases hr : c.reason with
  | none =>
    rw [hr] at h
    exact absurd h.symm hne
  | some text =>
    rw [hr] at h
    rw [← h]
    rfl

theorem Certificate.renewalTarget_eq_some_iff {c : Certificate} {id : String} :
    c.renewalTarget = some id ↔ c.Renews id := by
  constructor
  · intro h
    unfold renewalTarget at h
    split at h
    next reason htext =>
      split at h
      next hmem =>
        obtain ⟨status, hs, hreason⟩ := Option.bind_eq_some_iff.mp htext
        obtain ⟨condition, hc, hi, hr⟩ := CertificateStatus.issuingReason_eq_some_iff.mp hreason
        obtain ⟨hknown, hne⟩ := Option.filter_eq_some_iff.mp h
        have hmem : reason ∈ renewalReasons := List.contains_iff_mem.mp hmem
        have hreason : condition.reason = some reason :=
          Condition.reason_of_reasonText hr fun he => absurd (he ▸ hmem) (by decide)
        exact ⟨⟨status, condition, reason, hs, hc, hi, hreason, hmem⟩, hknown, by simpa using hne⟩
      next => exact absurd h (by simp)
    next => exact absurd h (by simp)
  · rintro ⟨⟨status, condition, reason, hs, hc, hi, hr, hmem⟩, hknown, hne⟩
    have hreason : c.status.bind CertificateStatus.issuingReason = some reason := by
      rw [hs, Option.bind_some, CertificateStatus.issuingReason_eq_some_iff]
      exact ⟨condition, hc, hi, by rw [Condition.reasonText, hr, Option.getD_some]⟩
    have hin : renewalReasons.contains reason = true := List.contains_iff_mem.mpr hmem
    unfold renewalTarget
    rw [hreason]
    simp only [hin, ↓reduceIte]
    rw [Metadata.lastCertificateId?, Metadata.entry?, hknown]
    simp [hne]

namespace RequestStatus

/-- While nothing final is known, a denial is one by an approver. -/
theorem hasTrue_denied {s : RequestStatus} (ht : s.terminal? = none) :
    s.hasTrue ConditionType.denied = s.isDeniedByApprover := by
  have hpki : (s.condition ConditionType.denied).any
      (fun c => c.isTrue && c.reasonText == Reason.pki) = false := by
    unfold terminal? at ht
    split at ht
    next => exact absurd ht (by simp)
    split at ht
    next => exact absurd ht (by simp)
    split at ht
    next => exact absurd ht (by simp)
    split at ht
    next => exact absurd ht (by simp)
    next hno => simpa using hno
  unfold hasTrue isDeniedByApprover
  cases hc : s.condition ConditionType.denied with
  | none => rfl
  | some c =>
    rw [hc, Option.any_some] at hpki
    rw [Option.any_some, Option.any_some]
    cases hi : c.isTrue with
    | false => simp
    | true => simpa [hi] using hpki

end RequestStatus

/-- Whether an event keeps a pass from submitting: a name does not resolve, or what is needed cannot
be read or made. -/
def hinders (issuer : Issuer) : Event → Bool
  | ⟨.lookUp _ _ _, answer⟩ => answer != .found
  | ⟨.readCertificate _ _, .ok (some _)⟩ => false
  | ⟨.readCertificate _ _, _⟩ => true
  | ⟨.readIngress _ _, .ok _⟩ => false
  | ⟨.readIngress _ _, .error _⟩ => true
  | ⟨.readSecret _ _, .ok (some secret)⟩ => (issuer.credentialsIn secret).toOption.isNone
  | ⟨.readSecret _ _, _⟩ => true
  | ⟨.openSession _, .ok _⟩ => false
  | ⟨.openSession _, .error _⟩ => true
  | _ => false

namespace CertificateRequest

variable {r q current : CertificateRequest} {issuer : Issuer} {settings : Settings}
  {csr id : String} {parent : Option Certificate} {session : Pki.Session}
  {events first second asked seeking guarding : List Event} {outcome : Except Failure Action}

/-- A signing request that is a text is what the request holds in base64. -/
theorem decodeText_of_csrText (h : r.csrText = .ok csr) :
    Base64.decodeText r.spec.request = .ok (Utf8.encode csr) := by
  unfold csrText at h
  split at h
  next => exact absurd h (by simp)
  next pem hpem =>
    rw [RequestSpec.csrPem] at hpem
    rw [hpem, Utf8.encode_of_decode (mapError_eq_ok.mp h)]

/-- The parent Certificate was read, and there is a certificate to renew for it. -/
def Renews (r : CertificateRequest) (events : List Event) (id : String) : Prop :=
  ∃ name parent, r.metadata.parentName? = some name ∧
    (⟨.readCertificate r.metadata.nsText name, .ok (some parent)⟩ : Event) ∈ events ∧
    parent.Renews id

theorem renews_append : r.Renews (first ++ second) id ↔ r.Renews first id ∨ r.Renews second id := by
  simp only [Renews, List.mem_append]
  constructor
  · rintro ⟨name, parent, hn, hread | hread, hp⟩
    · exact .inl ⟨name, parent, hn, hread, hp⟩
    · exact .inr ⟨name, parent, hn, hread, hp⟩
  · rintro (⟨name, parent, hn, hread, hp⟩ | ⟨name, parent, hn, hread, hp⟩)
    · exact ⟨name, parent, hn, .inl hread, hp⟩
    · exact ⟨name, parent, hn, .inr hread, hp⟩

theorem Seeks.not_renews {found : Except Failure Issuer} (h : r.Seeks events found) :
    ¬ q.Renews events id := by
  rintro ⟨name, parent, _, hread, _⟩
  cases h <;> simp [issuerQuestion] at hread

theorem Guards.not_renews {found : Except Failure CertificateRequest}
    (h : r.Guards issuer events found) : ¬ q.Renews events id := by
  rintro ⟨name, parent, _, hread, _⟩
  cases h <;> simp at hread

theorem Gates.not_renews {passed : Except Failure Unit}
    (h : Gates issuer settings csr events passed) : ¬ q.Renews events id := by
  rintro ⟨name, parent, _, hread, _⟩
  cases h with
  | unguarded => simp at hread
  | checked _ hr => cases hr <;> simp [NameCheck.resolved] at hread

theorem Dresses.not_renews {found : Except Failure (Option (Dict String))}
    (h : r.Dresses parent events found) : ¬ q.Renews events id := by
  rintro ⟨name, parent, _, hread, _⟩
  cases h <;> simp at hread

theorem not_renews_of_opens {opened : Except Failure Pki.Session}
    (h : issuer.Opens settings events opened) : ¬ q.Renews events id := by
  rintro ⟨name, parent, _, hread, _⟩
  exact h.not_asked (by simp) (by simp) ⟨_, hread, rfl⟩

/-- The parent Certificate was read and is there, if the request names one. -/
def MeetsParent (r : CertificateRequest) (events : List Event) : Prop :=
  ∀ name, r.metadata.parentName? = some name → ∃ parent,
    (⟨.readCertificate r.metadata.nsText name, .ok (some parent)⟩ : Event) ∈ events

theorem MeetsParent.mono (h : r.MeetsParent first) (hsub : first ⊆ events) :
    r.MeetsParent events := by
  intro name hname
  obtain ⟨parent, hread⟩ := h name hname
  exact ⟨parent, hsub hread⟩

theorem Finds.meetsParent (h : r.Finds events (.ok parent)) : r.MeetsParent events := by
  intro name hname
  cases h with
  | unnamed hnone => cases hname.symm.trans hnone
  | found hfound c =>
    cases hname.symm.trans hfound
    exact ⟨c, List.mem_cons_self⟩

theorem Prepares.meetsParent (h : r.Prepares issuer settings events (.ok (csr, parent, session))) :
    r.MeetsParent events := by
  cases h with
  | prepared _ _ hp _ => exact hp.meetsParent.mono (by simp)

theorem Finds.renews_iff (h : r.Finds events (.ok parent)) :
    r.Renews events id ↔ parent.bind Certificate.renewalTarget = some id := by
  cases h with
  | unnamed hn => simp [Renews]
  | @found name hn c =>
    rw [Option.bind_some, Certificate.renewalTarget_eq_some_iff]
    constructor
    · rintro ⟨_, read, _, hread, hp⟩
      cases List.mem_singleton.mp hread
      exact hp
    · intro hc
      exact ⟨name, c, hn, List.mem_cons_self, hc⟩

theorem Prepares.renews_iff (h : r.Prepares issuer settings events (.ok (csr, parent, session))) :
    r.Renews events id ↔ parent.bind Certificate.renewalTarget = some id := by
  cases h with
  | prepared _ hg hp ho =>
    rw [renews_append, renews_append, hp.renews_iff]
    simp [hg.not_renews, not_renews_of_opens ho]

/-- A pass may submit the request: what it read of the issuer and of the request allows it.
The pass goes on with `current`, the request it read or the one answered by the API server when
the finalizer was added. -/
structure Admits (r : CertificateRequest) (asked : List Event) (issuer : Issuer)
    (current : CertificateRequest) : Prop where
  group : r.spec.issuerRef.group = some groupName
  alive : r.metadata.deletionTimestamp = none
  resolved : ∃ scope, r.spec.issuerRef.scope = .ok scope ∧
    asked[0]? = some ⟨r.issuerQuestion scope, .ok (some issuer)⟩
  ready : issuer.isReady = true
  guarded : r.lacksFinalizer issuer = false ∧ current = r ∨
    r.lacksFinalizer issuer = true ∧ asked[1]? = some ⟨.addFinalizer r, .ok current⟩
  unfinished : current.currentStatus.terminal? = none
  approved : current.currentStatus.hasTrue ConditionType.approved = true
  undenied : current.currentStatus.hasTrue ConditionType.denied = false
  unsent : current.metadata.requestId? = none

/-- The events of a pass that gets as far as sending a submission. -/
inductive Reaches (r : CertificateRequest) (settings : Settings) (issuer : Issuer)
    (current : CertificateRequest) : List Event → Prop
  | sent {seeking guarding sending later : List Event} {outcome : Except Failure String}
      (h : r.Enters issuer current seeking guarding)
      (hn : current.currentStatus.isDeniedByApprover = false)
      (hf : current.metadata.requestId? = none)
      (ha : current.currentStatus.hasTrue ConditionType.approved = true)
      (hw : current.withStatus.Sends issuer settings sending outcome) (hl : calls later = []) :
      Reaches r settings issuer current (seeking ++ (guarding ++ (sending ++ later)))

theorem reaches_of_submits {advancing later : List Event}
    {result : CertificateRequest × Except Failure Action}
    (h : r.Enters issuer current seeking guarding)
    (hn : current.currentStatus.isDeniedByApprover = false)
    (hf : current.metadata.requestId? = none)
    (ha : current.currentStatus.hasTrue ConditionType.approved = true)
    (hw : current.withStatus.Submits issuer settings advancing result) (hl : calls later = []) :
    r.Reaches settings issuer current (seeking ++ (guarding ++ (advancing ++ later))) := by
  cases hw with
  | accepted hw now =>
    rw [List.append_assoc _ [_] _]
    exact .sent h hn hf ha hw (by simpa [Ask.isCall] using hl)
  | failed hw now =>
    rw [List.append_assoc _ [_] _]
    exact .sent h hn hf ha hw (by simpa [Ask.isCall] using hl)

/-- Once a request was moved on, the PKI is not called again. -/
theorem calls_of_reflects {after reflected : CertificateRequest} {noted linking : List Event}
    {linked stored : Except Failure Unit} (hr : after.Reflects outcome noted reflected)
    (hl : reflected.Links linking linked) :
    calls (noted ++ ⟨.storeRequest current reflected, stored⟩ :: linking) = [] := by
  simp [hr.quiet.calls, hl.quiet.calls, Ask.isCall]

/-- A pass that moves a request on sends a submission, or submits nothing. -/
theorem Works.reaches_or_unsubmitted (h : r.Works settings asked) :
    (∃ issuer current, r.Reaches settings issuer current asked) ∨ Unsubmitted asked := by
  cases h with
  | @stored seeking guarding advancing noted linking issuer current _ reflected _ _ h ha hr stored
      hl =>
    have hlater : calls (noted ++ ⟨.storeRequest current.withStatus reflected, stored⟩ :: linking) =
        [] := calls_of_reflects hr hl
    have hrest (hadv : Unsubmitted advancing) : Unsubmitted (seeking ++ (guarding ++
        (advancing ++ (noted ++ ⟨.storeRequest current.withStatus reflected, stored⟩ ::
          linking)))) := by
      have hlast := never_append.mpr ⟨hadv, unsubmitted_of_calls hlater⟩
      have hguarding := never_append.mpr ⟨h.guards.unsubmitted, hlast⟩
      exact never_append.mpr ⟨h.seeks.quiet.unsubmitted, hguarding⟩
    cases ha with
    | denied => exact .inr (hrest (by simp [Ask.isSubmission]))
    | polled _ _ hp => exact .inr (hrest hp.unsubmitted)
    | waiting => exact .inr (hrest (never_nil _))
    | submitted hn hf ha hsub =>
      exact .inl ⟨issuer, current, reaches_of_submits h hn hf ha hsub hlater⟩

theorem Reaches.admits (h : r.Reaches settings issuer current asked) :
    r.Admits asked issuer current := by
  cases h with
  | sent h hn hf ha =>
    obtain ⟨hgroup, halive, hs, hi, hg, ht⟩ := h
    refine ⟨by simpa [IssuerReference.targetsThisGroup] using hgroup,
      by simpa [isDeleted] using halive, ?_, hi, ?_, ht, ha, ?_, hf⟩
    · cases hs with
      | found hs => exact ⟨_, hs, rfl⟩
    · cases hs with
      | found hs =>
        cases hg with
        | content hlacks => exact .inl ⟨hlacks, rfl⟩
        | written hlacks => exact .inr ⟨hlacks, rfl⟩
    · rw [RequestStatus.hasTrue_denied ht]
      exact hn

/-- Only the issuer that was read first admits a request. -/
theorem Admits.found_eq {found : Except Failure Issuer} (h : r.Admits asked issuer current)
    (hs : r.Seeks seeking found) (hp : seeking <+: asked) : found = .ok issuer := by
  obtain ⟨rest, rfl⟩ := hp
  obtain ⟨scope, hscope, hread⟩ := h.resolved
  cases hs with
  | unresolved he =>
    rw [he] at hscope
    exact absurd hscope (by simp)
  | unread => simp [issuerQuestion] at hread
  | missing => simp [issuerQuestion] at hread
  | found =>
    cases Option.some.inj hread
    rfl

/-- The pass goes on with the request that is admitted. -/
theorem Admits.answered_eq {answered : Except Failure CertificateRequest}
    (h : r.Admits asked issuer current) (hs : r.Seeks seeking (.ok issuer))
    (hg : r.Guards issuer guarding answered) (hp : seeking ++ guarding <+: asked) :
    answered = .ok current := by
  obtain ⟨rest, rfl⟩ := hp
  have hguarded := h.guarded
  cases hs
  cases hg with
  | content hlacks =>
    rcases hguarded with ⟨_, rfl⟩ | ⟨hno, _⟩
    · rfl
    · exact absurd hno (by simp [hlacks])
  | written hlacks =>
    rcases hguarded with ⟨hno, _⟩ | ⟨_, hread⟩
    · exact absurd hlacks (by simp [hno])
    · simpa using hread

theorem Courses.reaches_of_admits (hc : r.Courses settings asked outcome)
    (h : r.Admits asked issuer current) : r.Reaches settings issuer current asked := by
  have hgroup : r.spec.issuerRef.targetsThisGroup = true := by
    simp [IssuerReference.targetsThisGroup, h.group]
  have halive : r.isDeleted = false := by simp [isDeleted, h.alive]
  have hundenied : current.currentStatus.isDeniedByApprover = false := by
    rw [← RequestStatus.hasTrue_denied h.unfinished]
    exact h.undenied
  cases hc with
  | foreign hno => exact absurd hgroup (by simp [hno])
  | released _ hd => exact absurd hd (by simp [halive])
  | unresolved _ _ hs => exact absurd (h.found_eq hs List.prefix_rfl) (by simp)
  | unready _ _ hs hno =>
    cases h.found_eq hs List.prefix_rfl
    exact absurd h.ready (by simp [hno])
  | finished _ hd => exact absurd hd (by simp [halive])
  | proceeded _ _ hs _ hp =>
    cases h.found_eq hs (List.prefix_append ..)
    cases hp with
    | unguarded hg => exact absurd (h.answered_eq hs hg List.prefix_rfl) (by simp)
    | closed hg ht =>
      cases h.answered_eq hs hg List.prefix_rfl
      exact absurd h.unfinished (by simp [ht])
    | issued hg ht =>
      cases h.answered_eq hs hg ⟨_, List.append_assoc ..⟩
      exact absurd h.unfinished (by simp [ht])
    | worked hg ht ha hr stored hl =>
      cases h.answered_eq hs hg ⟨_, List.append_assoc ..⟩
      cases ha with
      | denied hyes => exact absurd hyes (by simp [hundenied])
      | polled _ hid =>
        rw [withStatus_metadata, h.unsent] at hid
        exact absurd hid (by simp)
      | waiting _ _ hno => exact absurd h.approved (by simpa using hno)
      | submitted hn hf ha hw =>
        have henters : r.Enters issuer current _ _ := ⟨hgroup, halive, hs, h.ready, hg, ht⟩
        exact reaches_of_submits henters hn hf ha hw (calls_of_reflects hr hl)

/-- A call submits the request: as a renewal where there is a certificate to renew, otherwise as an
enrollment. The parent was read if the request names one. -/
def SubmitsAs (r : CertificateRequest) (before : List Event) (csr : String) (call : Pki.Call) :
    Prop :=
  (∃ id, r.Renews before id ∧ call = .renew id csr) ∨
    (∀ id, ¬ r.Renews before id) ∧ r.MeetsParent before ∧
      ∃ e : Pki.Enrollment, call = .enroll e ∧ e.csr = csr

/-- The signing request is a text, and the check of its names can start, if there is one. -/
def Legible (r : CertificateRequest) (issuer : Issuer) : Prop :=
  ∃ csr, r.csrText = .ok csr ∧ ∀ checker, issuer.spec.dnsChecker = some checker →
    (∃ address, NameCheck.server? checker.server = .ok address) ∧
    ∃ names, NameCheck.names? (Utf8.encode csr) = .ok names

theorem Gates.hindered {f : Failure} (h : Gates issuer settings csr events (.error f))
    (hc : ∀ checker, issuer.spec.dnsChecker = some checker →
      (∃ address, NameCheck.server? checker.server = .ok address) ∧
      ∃ names, NameCheck.names? (Utf8.encode csr) = .ok names) :
    ∃ e ∈ events, hinders issuer e = true := by
  cases h with
  | @checked checker _ _ hd hr =>
    obtain ⟨⟨address, haddress⟩, names, hnames⟩ := hc checker hd
    cases hr with
    | unaddressed hno => exact absurd haddress (by simp [hno])
    | unread _ hno => exact absurd hnames (by simp [hno])
    | @stopped address _ _ name answer _ _ _ hv =>
      have hmissed : answer ≠ .found := by
        intro hfound
        rw [NameCheck.verdict_eq_ok.mpr hfound] at hv
        exact absurd hv (by simp)
      refine ⟨⟨.lookUp address name settings.dnsCheckTimeout, answer⟩, by simp, ?_⟩
      simpa [hinders] using hmissed

theorem Finds.hindered {f : Failure} (h : r.Finds events (.error f)) :
    ∃ e ∈ events, hinders issuer e = true := by
  cases h with
  | unread => exact ⟨_, List.mem_cons_self, rfl⟩
  | missing => exact ⟨_, List.mem_cons_self, rfl⟩

theorem Dresses.hindered {f : Failure} (h : r.Dresses parent events (.error f)) :
    ∃ e ∈ events, hinders issuer e = true := by
  cases h with
  | unread => exact ⟨_, List.mem_cons_self, rfl⟩

theorem hindered_of_opens {f : Failure} (h : issuer.Opens settings events (.error f)) :
    ∃ e ∈ events, hinders issuer e = true := by
  cases h with
  | unread => exact ⟨_, List.mem_cons_self, rfl⟩
  | missing => exact ⟨_, List.mem_cons_self, rfl⟩
  | unusable hno =>
    refine ⟨_, List.mem_cons_self, ?_⟩
    simp [hinders, Issuer.secretQuestion, hno, Except.toOption]
  | refused => exact ⟨_, List.mem_cons_of_mem _ List.mem_cons_self, rfl⟩

theorem Prepares.hindered {f : Failure} (h : r.Prepares issuer settings events (.error f))
    (hl : r.Legible issuer) : ∃ e ∈ events, hinders issuer e = true := by
  obtain ⟨text, htext, hchecks⟩ := hl
  cases h with
  | undecoded hno => exact absurd htext (by simp [hno])
  | barred hc hg =>
    rw [htext] at hc
    cases hc
    exact hg.hindered hchecks
  | @orphaned _ _ family _ _ _ hp =>
    obtain ⟨e, he, hh⟩ : ∃ e ∈ family, hinders issuer e = true := hp.hindered
    exact ⟨e, List.mem_append_right _ he, hh⟩
  | unopened _ _ _ ho =>
    obtain ⟨e, he, hh⟩ := hindered_of_opens ho
    exact ⟨e, List.mem_append_right _ (List.mem_append_right _ he), hh⟩

theorem Prepares.csrText_eq (h : r.Prepares issuer settings events (.ok (csr, parent, session))) :
    r.csrText = .ok csr := by
  cases h with
  | prepared hc => exact hc

/-- Sending a submission ends with the call, or the PKI is not called and an event says why. -/
theorem Sends.submits_or_hindered {sent : Except Failure String}
    (h : r.Sends issuer settings events sent) :
    (∃ before session call answer csr, events = before ++ [⟨.call session call, answer⟩] ∧
      Quiet before ∧ r.csrText = .ok csr ∧ r.SubmitsAs before csr call) ∨
    Quiet events ∧ (r.Legible issuer → ∃ e ∈ events, hinders issuer e = true) := by
  cases h with
  | unprepared hp => exact .inr ⟨hp.quiet, hp.hindered⟩
  | @renewed before csr id _ session hp ht answer =>
    exact .inl ⟨before, session, .renew id csr, answer, csr, rfl, hp.quiet, hp.csrText_eq,
      .inl ⟨id, hp.renews_iff.mpr ht, rfl⟩⟩
  | @undressed _ dressing _ _ _ _ hp _ hd =>
    refine .inr ⟨by simp [hp.quiet, hd.quiet], fun _ => ?_⟩
    obtain ⟨e, he, hh⟩ : ∃ e ∈ dressing, hinders issuer e = true := hd.hindered
    exact ⟨e, List.mem_append_right _ he, hh⟩
  | @enrolled before dressing csr parent session ingress hp ht hd answer =>
    refine .inl ⟨before ++ dressing, session, .enroll (enrollment issuer.spec parent ingress csr),
      answer, csr, (List.append_assoc ..).symm, by simp [hp.quiet, hd.quiet], hp.csrText_eq,
      .inr ⟨fun id hrenews => ?_, hp.meetsParent.mono (by simp), _, rfl, rfl⟩⟩
    rcases renews_append.mp hrenews with hrenews | hrenews
    · rw [hp.renews_iff, ht] at hrenews
      exact absurd hrenews (by simp)
    · exact hd.not_renews hrenews

end CertificateRequest

end CertBroker
