import CertBroker.Proofs.Request.Refusal

namespace CertBroker

open NameCheck (names? resolved server? verdict)
open Simulation (World)

namespace Ask

def isLookUp : Ask → Bool
  | .lookUp _ _ _ => true
  | _ => false

/-- Whether a question leaves the cluster: for the DNS server, or for the PKI. -/
def goesOut (q : Ask) : Bool := q.contactsPki || q.isLookUp

end Ask

abbrev Unlooked : List Event → Prop := Never Ask.isLookUp

/-- Nothing leaves the cluster. -/
abbrev Inside : List Event → Prop := Never Ask.goesOut

variable {events : List Event}

theorem Inside.unlooked (h : Inside events) : Unlooked events :=
  h.mono fun _ hq => (Bool.or_eq_false_iff.mp hq).2

theorem Inside.offline (h : Inside events) : Offline events :=
  h.mono fun _ hq => (Bool.or_eq_false_iff.mp hq).1

theorem Issuer.Opens.unlooked {i : Issuer} {settings : Settings}
    {opened : Except Failure Pki.Session} (h : i.Opens settings events opened) :
    Unlooked events := by
  cases h <;> simp [secretQuestion, Ask.isLookUp]

theorem NameCheck.exists_text_of_verdict (server name : String) {answer : Lookup}
    (h : answer ≠ .found) : ∃ text, verdict server name answer = .error (.dnsValidation text) := by
  cases answer with
  | found => exact absurd rfl h
  | failed => exact ⟨_, rfl⟩
  | noAnswer => exact ⟨_, rfl⟩

namespace CertificateRequest

variable {r current : CertificateRequest} {issuer : Issuer} {checker : DnsChecker}
  {settings : Settings} {seeking guarding tail gate : List Event} {csr : String}
  {outcome : Except Failure Action} {sent : Except Failure String}

theorem Seeks.inside {found : Except Failure Issuer} (h : r.Seeks events found) :
    Inside events := by
  cases h <;> simp [issuerQuestion, Ask.goesOut, Ask.contactsPki, Ask.isLookUp]

theorem Guards.inside {found : Except Failure CertificateRequest}
    (h : r.Guards issuer events found) : Inside events := by
  cases h <;> simp [Ask.goesOut, Ask.contactsPki, Ask.isLookUp]

theorem Links.inside {linked : Except Failure Unit} (h : r.Links events linked) :
    Inside events := by
  cases h <;> simp [Ask.goesOut, Ask.contactsPki, Ask.isLookUp]

theorem Links.alone {linked : Except Failure Unit} (h : r.Links events linked)
    (hn : r.metadata.certificateId? = none ∨ r.metadata.parentName? = none) : Alone events := by
  cases h <;> simp_all

theorem Reflects.inside {after : CertificateRequest} (h : r.Reflects outcome events after) :
    Inside events := by
  cases h <;> simp [Ask.goesOut, Ask.contactsPki, Ask.isLookUp]

theorem Reflects.alone {after : CertificateRequest} (h : r.Reflects outcome events after) :
    Alone events := by
  cases h <;> simp [Ask.concernsParent]

theorem Finds.unlooked {found : Except Failure (Option Certificate)} (h : r.Finds events found) :
    Unlooked events := by
  cases h <;> simp [Ask.isLookUp]

theorem Dresses.unlooked {parent : Option Certificate}
    {found : Except Failure (Option (Dict String))} (h : r.Dresses parent events found) :
    Unlooked events := by
  cases h <;> simp [Ask.isLookUp]

/-- All names of a request resolve, before anything else is asked; later no name is looked up. -/
def Vetted (r : CertificateRequest) (checker : DnsChecker) (settings : Settings)
    (events : List Event) : Prop :=
  ∃ address csr names rest, server? checker.server = .ok address ∧ r.csrText = .ok csr ∧
    names? (Utf8.encode csr) = .ok names ∧
    events = names.map (resolved address settings.dnsCheckTimeout) ++ rest ∧ Unlooked rest

/-- Names are looked up in order, up to one that does not resolve. -/
def StopsAt (r : CertificateRequest) (checker : DnsChecker) (settings : Settings)
    (address : Net.SocketAddress) (name : String) (answer : Lookup) (events : List Event) : Prop :=
  ∃ csr before later, server? checker.server = .ok address ∧ r.csrText = .ok csr ∧
    names? (Utf8.encode csr) = .ok (before ++ name :: later) ∧
    events = before.map (resolved address settings.dnsCheckTimeout) ++
      [⟨.lookUp address name settings.dnsCheckTimeout, answer⟩]

/-- How far a submission comes under an issuer that checks names. -/
inductive Gated (r : CertificateRequest) (checker : DnsChecker) (settings : Settings) :
    List Event → Except Failure String → Prop
  | unchecked (f : Failure) : Gated r checker settings [] (.error f)
  | stopped {address : Net.SocketAddress} {name : String} {answer : Lookup} {f : Failure}
      {events : List Event} (h : r.StopsAt checker settings address name answer events)
      (hv : verdict checker.server name answer = .error f) :
      Gated r checker settings events (.error f)
  | vetted {events : List Event} {sent : Except Failure String}
      (h : r.Vetted checker settings events) : Gated r checker settings events sent

theorem Gates.gated {f : Failure} (hd : issuer.spec.dnsChecker = some checker)
    (hc : r.csrText = .ok csr) (h : Gates issuer settings csr gate (.error f)) :
    r.Gated checker settings gate (.error f) := by
  cases h with
  | checked hd' hr =>
    cases hd.symm.trans hd'
    cases hr with
    | unaddressed => exact .unchecked f
    | unread => exact .unchecked f
    | stopped ha hn hv => exact .stopped ⟨csr, _, _, ha, hc, hn, rfl⟩ hv

theorem Gates.vetted {rest : List Event} (hd : issuer.spec.dnsChecker = some checker)
    (hc : r.csrText = .ok csr) (h : Gates issuer settings csr gate (.ok ()))
    (hrest : Unlooked rest) : r.Vetted checker settings (gate ++ rest) := by
  cases h with
  | unguarded hno =>
    rw [hd] at hno
    cases hno
  | checked hd' hr =>
    cases hd.symm.trans hd'
    cases hr with
    | passed ha hn => exact ⟨_, csr, _, rest, ha, hc, hn, rfl, hrest⟩

theorem Vetted.append (h : r.Vetted checker settings events) {rest : List Event}
    (hrest : Unlooked rest) : r.Vetted checker settings (events ++ rest) := by
  obtain ⟨address, csr, names, later, ha, hc, hn, rfl, hlater⟩ := h
  exact ⟨address, csr, names, later ++ rest, ha, hc, hn, List.append_assoc _ _ _,
    never_append.mpr ⟨hlater, hrest⟩⟩

theorem Prepares.vetted {parent : Option Certificate} {session : Pki.Session}
    (hd : issuer.spec.dnsChecker = some checker)
    (h : r.Prepares issuer settings events (.ok (csr, parent, session))) :
    r.Vetted checker settings events := by
  cases h with
  | prepared hc hg hp ho => exact hg.vetted hd hc (never_append.mpr ⟨hp.unlooked, ho.unlooked⟩)

theorem Prepares.gated {f : Failure} (hd : issuer.spec.dnsChecker = some checker)
    (h : r.Prepares issuer settings events (.error f)) :
    r.Gated checker settings events (.error f) := by
  cases h with
  | undecoded => exact .unchecked f
  | barred hc hg => exact hg.gated hd hc
  | orphaned hc hg hp => exact .vetted (hg.vetted hd hc hp.unlooked)
  | unopened hc hg hp ho =>
    exact .vetted (hg.vetted hd hc (never_append.mpr ⟨hp.unlooked, ho.unlooked⟩))

theorem Sends.gated (hd : issuer.spec.dnsChecker = some checker)
    (h : r.Sends issuer settings events sent) : r.Gated checker settings events sent := by
  cases h with
  | unprepared hp => exact hp.gated hd
  | renewed hp => exact .vetted ((hp.vetted hd).append (by simp [Ask.isLookUp]))
  | undressed hp _ hdress => exact .vetted ((hp.vetted hd).append hdress.unlooked)
  | enrolled hp _ hdress =>
    refine .vetted ((hp.vetted hd).append (never_append.mpr ⟨hdress.unlooked, ?_⟩))
    simp [Ask.isLookUp]

theorem Vetted.answer {e : Event} (h : r.Vetted checker settings events) (he : e ∈ events)
    (hl : e.question.isLookUp = true) :
    ∃ address name, e = resolved address settings.dnsCheckTimeout name := by
  obtain ⟨address, csr, names, rest, -, -, -, rfl, hrest⟩ := h
  rcases List.mem_append.mp he with he | he
  · obtain ⟨name, -, rfl⟩ := List.mem_map.mp he
    exact ⟨address, name, rfl⟩
  · exact absurd hl (by simp [hrest e he])

theorem StopsAt.offline {address : Net.SocketAddress} {name : String} {answer : Lookup}
    (h : r.StopsAt checker settings address name answer events) : Offline events := by
  obtain ⟨csr, before, later, -, -, -, rfl⟩ := h
  refine never_append.mpr ⟨?_, by simp [Ask.contactsPki]⟩
  intro e he
  obtain ⟨name, -, rfl⟩ := List.mem_map.mp he
  rfl

theorem StopsAt.eq_last {address asked : Net.SocketAddress} {name other : String}
    {answer reply : Lookup} {timeout : Nat}
    (h : r.StopsAt checker settings address name answer events)
    (he : (⟨.lookUp asked other timeout, reply⟩ : Event) ∈ events) (hne : reply ≠ .found) :
    asked = address ∧ other = name ∧ timeout = settings.dnsCheckTimeout ∧ reply = answer := by
  obtain ⟨csr, before, later, -, -, -, rfl⟩ := h
  rcases List.mem_append.mp he with he | he
  · obtain ⟨earlier, -, heq⟩ := List.mem_map.mp he
    cases heq
    exact absurd rfl hne
  · cases List.mem_singleton.mp he
    exact ⟨rfl, rfl, rfl, rfl⟩

/-- What follows a name that does not resolve: the pass fails with that, and the request is stored
with its ledger as it was, still open unless it had been found invalid. Its parent Certificate is
touched only after that, and only if the request has a certificate already. -/
structure Barred (r : CertificateRequest) (server name : String) (answer : Lookup)
    (rest : List Event) (outcome : Except Failure Action) : Prop where
  inside : Inside rest
  alone : r.metadata.certificateId? = none ∨ r.metadata.parentName? = none → Alone rest
  written : ∃ text clock after stored linking linked,
    verdict server name answer = .error (.dnsValidation text) ∧
    rest = clock ++ ⟨.storeRequest r after, stored⟩ :: linking ∧
    Alone clock ∧ after.Links linking linked ∧ after.metadata = r.metadata ∧
    (r.currentStatus.isInvalid = false → after.currentStatus.terminal? = none) ∧
    outcome = .error ((Failure.dnsValidation text).attach (failuresOf stored linked))

theorem barred_of_persist {name server text : String} {answer : Lookup} {now : Time}
    {rest : List Event} (hv : verdict server name answer = .error (.dnsValidation text))
    (ht : r.currentStatus.terminal? = none)
    (h : (persistOutcome r r (.error (.dnsValidation text))).Yields rest outcome) :
    r.Barred server name answer (⟨.now, now⟩ :: rest) outcome := by
  obtain ⟨noted, after, stored, linking, linked, rfl, hr, hl, rfl⟩ := persistOutcome_yields h
  have hmetadata := hr.metadata
  have halone (hn : r.metadata.certificateId? = none ∨ r.metadata.parentName? = none) :
      Alone linking := hl.alone (by rwa [hmetadata])
  refine ⟨?_, fun hn => ?_, text, ⟨.now, now⟩ :: noted, after, stored, linking, linked, hv, rfl,
    ?_, hl, hmetadata, fun hi => ?_, rfl⟩
  · simp [hr.inside, hl.inside, Ask.goesOut, Ask.contactsPki, Ask.isLookUp]
  · simp [hr.alone, halone hn, Ask.concernsParent]
  · simp [hr.alone, Ask.concernsParent]
  · cases hr with
    | failed _ time => exact (RequestStatus.awaits_applyFailure hi ht _ time).unfinished

/-- How a pass goes on with a request that is not submitted yet, under an issuer that checks. -/
theorem Enters.gated (he : r.Enters issuer current seeking guarding)
    (hd : issuer.spec.dnsChecker = some checker) (hi : current.metadata.requestId? = none)
    (h : (r.reconcile settings).Yields (seeking ++ (guarding ++ tail)) outcome) :
    Inside tail ∨ current.Vetted checker settings tail ∨
      ∃ address name answer stopping rest, answer ≠ .found ∧ tail = stopping ++ rest ∧
        current.StopsAt checker settings address name answer stopping ∧
        current.withStatus.Barred checker.server name answer rest outcome := by
  obtain ⟨advancing, moved, result, rest, rfl, ha, h⟩ := he.advances h
  have hlate : Inside rest := by
    obtain ⟨noted, after, stored, linking, linked, rfl, hr, hl, -⟩ := persistOutcome_yields h
    simp [hr.inside, hl.inside, Ask.goesOut, Ask.contactsPki, Ask.isLookUp]
  generalize hresult : (moved, result) = reached at ha
  cases advances_of_trace ha with
  | denied _ now => exact .inl (by simp [hlate, Ask.goesOut, Ask.contactsPki, Ask.isLookUp])
  | polled _ hsome => exact absurd (hi.symm.trans hsome) (by simp)
  | waiting => exact .inl hlate
  | submitted _ _ _ hs =>
    have hvetted {sending : List Event} (now : Time)
        (hc : current.Vetted checker settings sending) :
        current.Vetted checker settings (sending ++ [⟨.now, now⟩] ++ rest) := by
      rw [List.append_assoc]
      exact hc.append (by simp [hlate.unlooked, Ask.isLookUp])
    cases hs with
    | @accepted sending _ hsend now =>
      cases hsend.gated hd with
      | vetted hc => exact .inr (.inl (hvetted now hc))
    | @failed sending f hsend now =>
      obtain ⟨rfl, rfl⟩ := Prod.mk.inj hresult
      cases hsend.gated hd with
      | unchecked => exact .inl (by simp [hlate, Ask.goesOut, Ask.contactsPki, Ask.isLookUp])
      | vetted hc => exact .inr (.inl (hvetted now hc))
      | @stopped address name answer _ _ hstop hv =>
        have hne : answer ≠ .found := by
          rintro rfl
          cases hv
        -- Such a failure is not for good, so the request is written down as it was.
        obtain ⟨text, htext⟩ := NameCheck.exists_text_of_verdict checker.server name hne
        obtain rfl : f = .dnsValidation text := Except.error.inj (hv.symm.trans htext)
        refine .inr (.inr ⟨address, name, answer, sending, ⟨.now, now⟩ :: rest, hne, by simp, hstop,
          barred_of_persist htext he.unfinished h⟩)

/-- A pass over a request that is not deleted reaches the DNS server and the PKI only where it works
on the request, as it finds it once the finalizer is there. If the issuer asks for the check and
the request is not submitted yet, then a PKI client is made or called only after every name of the
signing request has resolved at the accepted address, in order; and with the first name that does
not resolve, nothing else leaves the cluster, and the pass fails with that name. -/
theorem gate_of_yields (h : (r.reconcile settings).Yields events outcome) :
    (∀ issuer checker current seeking guarding tail, r.Enters issuer current seeking guarding →
      events = seeking ++ (guarding ++ tail) → issuer.spec.dnsChecker = some checker →
      current.metadata.requestId? = none →
        Inside (seeking ++ guarding) ∧ Alone (seeking ++ guarding) ∧
        ((∃ e ∈ events, e.question.contactsPki = true) → current.Vetted checker settings tail) ∧
        ∀ address name timeout answer,
          (⟨.lookUp address name timeout, answer⟩ : Event) ∈ events → answer ≠ .found →
          ∃ stopping rest, tail = stopping ++ rest ∧
            current.StopsAt checker settings address name answer stopping ∧
            current.withStatus.Barred checker.server name answer rest outcome) ∧
    (r.isDeleted = false →
      (¬ ∃ issuer current seeking guarding tail, r.Enters issuer current seeking guarding ∧
        events = seeking ++ (guarding ++ tail)) → Inside events) := by
  constructor
  · rintro issuer checker current seeking guarding tail henters rfl hd hi
    have hearly : Inside (seeking ++ guarding) :=
      never_append.mpr ⟨henters.seeks.inside, henters.guards.inside⟩
    have hlate {e : Event} (he : e ∈ seeking ++ (guarding ++ tail))
        (hout : e.question.goesOut = true) : e ∈ tail := by
      rw [← List.append_assoc] at he
      exact (List.mem_append.mp he).resolve_left fun hin => by simp [hearly e hin] at hout
    have hgated := henters.gated hd hi h
    refine ⟨hearly, never_append.mpr ⟨henters.seeks.alone, henters.guards.alone⟩, ?_, ?_⟩
    · rintro ⟨e, he, hcontact⟩
      have he := hlate he (by simp [Ask.goesOut, hcontact])
      rcases hgated with hinside | hvetted | ⟨_, _, _, _, rest, -, rfl, hstop, hbarred⟩
      · exact absurd hcontact (by simp [hinside.offline e he])
      · exact hvetted
      · rcases List.mem_append.mp he with he | he
        · exact absurd hcontact (by simp [hstop.offline e he])
        · exact absurd hcontact (by simp [hbarred.inside.offline e he])
    · intro address name timeout answer he hne
      have he := hlate he rfl
      rcases hgated with hinside | hvetted | ⟨_, _, _, stopping, rest, -, rfl, hstop, hbarred⟩
      · exact absurd (hinside.unlooked _ he) (by simp [Ask.isLookUp])
      · obtain ⟨_, _, heq⟩ := hvetted.answer he rfl
        cases heq
        exact absurd rfl hne
      · have he : (⟨.lookUp address name timeout, answer⟩ : Event) ∈ stopping := by
          refine (List.mem_append.mp he).resolve_right fun hin => ?_
          exact absurd (hbarred.inside.unlooked _ hin) (by simp [Ask.isLookUp])
        obtain ⟨rfl, rfl, rfl, rfl⟩ := hstop.eq_last he hne
        exact ⟨stopping, rest, rfl, hstop, hbarred⟩
  · intro hdeleted hnone
    cases courses_of_yields h with
    | foreign => simp
    | released _ hd => exact absurd hdeleted (by simp [hd])
    | unresolved _ _ hs => exact hs.inside
    | unready _ _ hs => exact hs.inside
    | finished _ hd => exact absurd hdeleted (by simp [hd])
    | proceeded hg hd hs hready hp =>
      cases hp with
      | unguarded hguard => exact never_append.mpr ⟨hs.inside, hguard.inside⟩
      | closed hguard => exact never_append.mpr ⟨hs.inside, hguard.inside⟩
      | issued hguard _ hl =>
        exact never_append.mpr ⟨hs.inside, never_append.mpr ⟨hguard.inside, hl.inside⟩⟩
      | worked hguard ht =>
        exact absurd ⟨_, _, _, _, _, ⟨hg, hd, hs, hready, hguard, ht⟩, rfl⟩ hnone

/-- What a lookup asked for, and its answer. -/
def lookUp? : Event → Option (Net.SocketAddress × String × Nat × Lookup)
  | ⟨.lookUp address name timeout, answer⟩ => some (address, name, timeout, answer)
  | _ => none

theorem eq_of_lookUp? {e : Event} {address : Net.SocketAddress} {name : String} {timeout : Nat}
    {answer : Lookup} (h : lookUp? e = some (address, name, timeout, answer)) :
    e = ⟨.lookUp address name timeout, answer⟩ := by
  unfold lookUp? at h
  split at h
  next =>
    cases h
    rfl
  next => cases h

/-- An approved request for the names `a` and `b` of the Certificate, with a ledger. -/
def sampleNamed (ledger : Dict String) : CertificateRequest where
  metadata := {
    name := some "web", ns := some "shop", finalizers := some [finalizerName]
    annotations := some (ledger.insert Annotation.certificateName "web-tls") }
  spec := {
    request := "LS0tLS1CRUdJTiBBLS0tLS0KTURNd0tRSUJBREFZTVFvd0NBWURWUVFEREFGaE1Rb3dDQVlEVlFRRERBRmlN"
      ++ "QWd3QXdZQkt3TUJBS0FBTUFNR0FTc0RBUUE9Ci0tLS0tRU5EIEEtLS0tLQo="
    issuerRef := ⟨"pki", none, some groupName⟩ }
  status := some { conditions := [⟨ConditionType.approved, .yes, none, none, none⟩] }

/-- The sample issuer with a check of names. -/
def sampleChecking : Issuer :=
  { World.sampleIssuer with
    spec := { World.sampleIssuer.spec with dnsChecker := some ⟨"10.0.0.53"⟩ } }

/-- Of the two names only `a` resolves. -/
def sampleResolver : World := { World.sample.putIssuer sampleChecking with names := ["a"] }

def sampleServer : Net.SocketAddress := ⟨.v4 0x0a000035, 53, 0⟩

def sampleRun (ledger : Dict String) :
    Program.Run Ask Ask.Answer (Except Failure Action) World :=
  ((sampleNamed ledger).reconcile {}).result.run World.answer sampleResolver

theorem gate_of_unresolved :
    ∃ stopping rest, (sampleRun .empty).events.drop 1 = stopping ++ rest ∧
      (sampleNamed .empty).StopsAt ⟨"10.0.0.53"⟩ {} sampleServer "b" (.failed "NXDOMAIN")
        stopping ∧
      (sampleNamed .empty).withStatus.Barred "10.0.0.53" "b" (.failed "NXDOMAIN") rest
        (sampleRun .empty).value ∧ Alone rest := by
  have henters : (sampleNamed .empty).Enters sampleChecking (sampleNamed .empty)
      [⟨(sampleNamed .empty).issuerQuestion .namespaced, .ok (some sampleChecking)⟩] [] :=
    ⟨by decide, by decide, .found rfl _, by decide, .content (by decide), by decide⟩
  have hlooked : (sampleRun .empty).events.filterMap lookUp? =
      [(sampleServer, "a", 10, .found), (sampleServer, "b", 10, .failed "NXDOMAIN")] := by
    decide +kernel
  obtain ⟨e, he, hread⟩ := List.mem_filterMap.mp (hlooked ▸ by simp :
    (sampleServer, "b", 10, .failed "NXDOMAIN") ∈ (sampleRun .empty).events.filterMap lookUp?)
  have hfailed : (⟨.lookUp sampleServer "b" 10, .failed "NXDOMAIN"⟩ : Event) ∈
      (sampleRun .empty).events := eq_of_lookUp? hread ▸ he
  have hfirst : (sampleRun .empty).events.take 1 =
      [⟨(sampleNamed .empty).issuerQuestion .namespaced, .ok (some sampleChecking)⟩] := rfl
  have hsplit : (sampleRun .empty).events =
      [⟨(sampleNamed .empty).issuerQuestion .namespaced, .ok (some sampleChecking)⟩] ++
        ([] ++ (sampleRun .empty).events.drop 1) := by
    rw [List.nil_append, ← hfirst, List.take_append_drop]
  obtain ⟨-, -, -, hgate⟩ := (gate_of_yields (Attempt.run_yields World.answer
    ((sampleNamed .empty).reconcile {}) sampleResolver)).1 _ _ _ _ _ _ henters hsplit rfl
    (by decide)
  obtain ⟨stopping, rest, htail, hstop, hbarred⟩ := hgate _ _ _ _ hfailed (by simp)
  exact ⟨stopping, rest, htail, hstop, hbarred, hbarred.alone (.inl (by decide))⟩

/-- A request that has a certificate already. -/
def sampleLedger : Dict String := Dict.empty.insert Annotation.certificateId "cert-1"

/-- The name `b` does not resolve for a request with a certificate, and yet its parent Certificate
is touched afterwards: a link that failed before is made up for. -/
theorem parent_read_of_unresolved :
    (sampleNamed sampleLedger).metadata.requestId? = none ∧
      (sampleNamed sampleLedger).isDeleted = false ∧
      (⟨.lookUp sampleServer "b" 10, .failed "NXDOMAIN"⟩ : Event) ∈
        (sampleRun sampleLedger).events ∧
      ¬ Alone (sampleRun sampleLedger).events := by
  have hevents : (sampleRun sampleLedger).events.map
      (fun e => (lookUp? e, e.question.concernsParent)) =
      [(none, false), (some (sampleServer, "a", 10, .found), false),
        (some (sampleServer, "b", 10, .failed "NXDOMAIN"), false), (none, false), (none, false),
        (none, false), (none, true), (none, true)] := by decide +kernel
  obtain ⟨e, he, hfailed⟩ := List.mem_map.mp (hevents ▸ by simp :
    (some (sampleServer, "b", 10, .failed "NXDOMAIN"), false) ∈ (sampleRun sampleLedger).events.map
      fun e => (lookUp? e, e.question.concernsParent))
  obtain ⟨e', he', hparent⟩ := List.mem_map.mp (hevents ▸ by simp :
    (none, true) ∈ (sampleRun sampleLedger).events.map
      fun e => (lookUp? e, e.question.concernsParent))
  obtain ⟨hfailed, -⟩ := Prod.mk.inj hfailed
  obtain ⟨-, hparent⟩ := Prod.mk.inj hparent
  refine ⟨by decide, by decide, eq_of_lookUp? hfailed ▸ he, fun halone => ?_⟩
  exact absurd hparent (by simp [halone e' he'])

end CertificateRequest

end CertBroker
