import CertBroker.Proofs.Pass.Course

namespace CertBroker.CertificateRequest

variable {r : CertificateRequest} {settings : Settings} {events : List Event}
  {outcome : Except Failure Action}

/-- The status holds a certificate that is not empty and can be decoded. -/
def HoldsCertificate (r : CertificateRequest) : Prop :=
  ∃ text pem, r.currentStatus.certificate = some text ∧ text ≠ "" ∧
    Base64.decodeText text = .ok pem

theorem issuedLeaf_isSome_iff : r.issuedLeaf.isSome = true ↔ r.HoldsCertificate := by
  unfold issuedLeaf HoldsCertificate RequestStatus.certificatePem
  cases hc : r.currentStatus.certificate with
  | none => simp
  | some text =>
    by_cases he : text = ""
    · simp [he]
    · cases hd : Base64.decodeText text <;> simp [he, hd, Except.map]

theorem not_holdsCertificate_iff : ¬ r.HoldsCertificate ↔ r.issuedLeaf = none := by
  rw [← issuedLeaf_isSome_iff]
  cases r.issuedLeaf <;> simp

/-- The courses of a pass over a deleted request. -/
inductive Retires (r : CertificateRequest) (settings : Settings) :
    List Event → Except Failure Action → Prop
  | unguarded (h : r.metadata.hasFinalizer = false) : Retires r settings [] (.ok .awaitChange)
  | released (h : r.metadata.hasFinalizer = true) (hl : r.issuedLeaf = none)
      (removal : Except Failure Unit) :
      Retires r settings [⟨.removeFinalizer r, removal⟩] (removal.map fun _ => .awaitChange)
  | blocked {seeking : List Event} {f : Failure} (hl : r.issuedLeaf.isSome = true)
      (hs : r.Seeks seeking (.error f)) : Retires r settings seeking (.error f)
  | unready {scope : IssuerScope} {issuer : Issuer} (hl : r.issuedLeaf.isSome = true)
      (hi : issuer.isReady = false) :
      Retires r settings [⟨r.issuerQuestion scope, .ok (some issuer)⟩]
        (.ok (.requeue settings.healthCheckInterval))
  | spared {scope : IssuerScope} {issuer : Issuer} (h : r.metadata.hasFinalizer = true)
      (hs : r.spec.issuerRef.scope = .ok scope) (hi : issuer.isReady = true)
      (hr : issuer.spec.revokeCertificates = false) (removal : Except Failure Unit) :
      Retires r settings
        [⟨r.issuerQuestion scope, .ok (some issuer)⟩, ⟨.removeFinalizer r, removal⟩]
        (removal.map fun _ => .awaitChange)
  | unopened {scope : IssuerScope} {issuer : Issuer} {opening : List Event} {f : Failure}
      (hl : r.issuedLeaf.isSome = true) (hr : issuer.spec.revokeCertificates = true)
      (ho : issuer.Opens settings opening (.error f)) :
      Retires r settings (⟨r.issuerQuestion scope, .ok (some issuer)⟩ :: opening) (.error f)
  | unrevoked {scope : IssuerScope} {issuer : Issuer} {opening : List Event} {leaf : String}
      {session : Pki.Session} {e : PkiError} (hl : r.issuedLeaf = some leaf)
      (hr : issuer.spec.revokeCertificates = true)
      (ho : issuer.Opens settings opening (.ok session)) (he : e.isRejection = false) :
      Retires r settings (⟨r.issuerQuestion scope, .ok (some issuer)⟩ ::
        (opening ++ [⟨.call session (.revoke leaf .unspecified), .error e⟩])) (.error (.pki e))
  | revoked {scope : IssuerScope} {issuer : Issuer} {opening : List Event} {leaf : String}
      {session : Pki.Session} {answer : Except PkiError Unit}
      (h : r.metadata.hasFinalizer = true) (hl : r.issuedLeaf = some leaf)
      (hs : r.spec.issuerRef.scope = .ok scope) (hi : issuer.isReady = true)
      (hr : issuer.spec.revokeCertificates = true)
      (ho : issuer.Opens settings opening (.ok session)) (ha : Settled answer)
      (removal : Except Failure Unit) :
      Retires r settings (⟨r.issuerQuestion scope, .ok (some issuer)⟩ ::
        (opening ++ [⟨.call session (.revoke leaf .unspecified), answer⟩,
          ⟨.removeFinalizer r, removal⟩])) (removal.map fun _ => .awaitChange)

theorem retires_of_courses (hg : r.spec.issuerRef.targetsThisGroup = true)
    (hd : r.isDeleted = true) (h : r.Courses settings events outcome) :
    r.Retires settings events outcome := by
  cases h with
  | foreign hf => exact absurd hg (by simp [hf])
  | proceeded _ hn => exact absurd hd (by simp [hn])
  | released _ _ hr hn =>
    cases hr with
    | unguarded hf => exact .unguarded hf
    | kept => exact absurd rfl hn
    | removed hf hl => exact .released hf hl (.ok ())
    | failed hf hl f => exact .released hf hl (.error f)
  | unresolved _ hn hs => exact .blocked (hn hd).2 hs
  | unready _ hn hs hi =>
    cases hs with
    | found => exact .unready (hn hd).2 hi
  | finished _ _ hn hs hi hf =>
    obtain ⟨hfin, hl⟩ := hn hd
    cases hs with
    | found hs issuer =>
      cases hf with
      | unguarded hno => exact absurd hfin (by simp [hno])
      | spared _ hr => exact .spared hfin hs hi hr _
      | unrevoked _ hr hv =>
        cases hv with
        | unopened _ ho => exact .unopened hl hr ho
        | failed hleaf ho he => exact .unrevoked hleaf hr ho he
      | revoked _ hr hv =>
        cases hv with
        | nothing hno => exact absurd hl (by simp [hno])
        | settled hleaf ho ha =>
          simpa using Retires.revoked hfin hleaf hs hi hr ho ha _

/-- What a pass over a deleted request may ask. -/
def DeletionAsks (r : CertificateRequest) : Ask → Prop
  | .readIssuer _ _ _ => True
  | .readSecret _ _ => True
  | .openSession _ => True
  | .call _ c => ∃ leaf, r.issuedLeaf = some leaf ∧ c = .revoke leaf .unspecified
  | .removeFinalizer q => q = r
  | _ => False

/-- The events show an issuer that lets the request go: it is ready, and it does not revoke or the
PKI granted or refused the revocation. -/
def Cleared (r : CertificateRequest) (events : List Event) : Prop :=
  ∃ scope issuer, r.spec.issuerRef.scope = .ok scope ∧
    (⟨r.issuerQuestion scope, .ok (some issuer)⟩ : Event) ∈ events ∧ issuer.isReady = true ∧
    (issuer.spec.revokeCertificates = false ∨ ∃ session leaf answer,
      (⟨.openSession session, .ok ()⟩ : Event) ∈ events ∧
      (⟨.call session (.revoke leaf .unspecified), answer⟩ : Event) ∈ events ∧ Settled answer)

theorem cleared_cons_iff {scope : IssuerScope} {issuer : Issuer} {rest : List Event}
    (hrest : ∀ scope, ¬ Asked (r.issuerQuestion scope) rest) :
    r.Cleared (⟨r.issuerQuestion scope, .ok (some issuer)⟩ :: rest) ↔
      r.spec.issuerRef.scope = .ok scope ∧ issuer.isReady = true ∧
        (issuer.spec.revokeCertificates = false ∨ ∃ session leaf answer,
          (⟨.openSession session, .ok ()⟩ : Event) ∈ rest ∧
          (⟨.call session (.revoke leaf .unspecified), answer⟩ : Event) ∈ rest ∧
          Settled answer) := by
  constructor
  · rintro ⟨found, i, hs, hi, hready, hlets⟩
    rcases List.mem_cons.mp hi with hi | hi
    · cases hi
      refine ⟨hs, hready, ?_⟩
      simpa [issuerQuestion] using hlets
    · exact absurd ⟨_, hi, rfl⟩ (hrest found)
  · rintro ⟨hs, hready, hlets⟩
    refine ⟨scope, issuer, hs, List.mem_cons_self, hready, ?_⟩
    simpa [issuerQuestion] using hlets

/-- An issuer that revokes keeps the request until a revocation is settled. -/
theorem not_cleared_of_unsettled {scope : IssuerScope} {issuer : Issuer} {rest : List Event}
    (hr : issuer.spec.revokeCertificates = true)
    (hrest : ∀ scope, ¬ Asked (r.issuerQuestion scope) rest)
    (hu : ∀ session leaf answer,
      (⟨.call session (.revoke leaf .unspecified), answer⟩ : Event) ∈ rest → ¬ Settled answer) :
    ¬ r.Cleared (⟨r.issuerQuestion scope, .ok (some issuer)⟩ :: rest) := by
  rw [cleared_cons_iff hrest]
  rintro ⟨_, _, hlets⟩
  rcases hlets with hlets | ⟨session, leaf, answer, _, hcall, hs⟩
  · exact absurd hr (by simp [hlets])
  · exact hu session leaf answer hcall hs

theorem not_asked_issuerQuestion {issuer : Issuer} {opening : List Event}
    {opened : Except Failure Pki.Session} (h : issuer.Opens settings opening opened)
    (scope : IssuerScope) : ¬ Asked (r.issuerQuestion scope) opening :=
  h.not_asked (by simp [issuerQuestion]) (by simp [issuerQuestion])

/-- A client is made for the issuer that was read, and once. -/
theorem eq_error_of_opens {scope found : IssuerScope} {issuer i : Issuer}
    {opening made tail : List Event} {opened : Except Failure Pki.Session} {f : Failure}
    (hmade : i.Opens settings made opened)
    (htail : ∀ e ∈ tail, (∀ scope ns name, e.question ≠ .readIssuer scope ns name) ∧
      (∀ ns name, e.question ≠ .readSecret ns name) ∧ ∀ s, e.question ≠ .openSession s)
    (hi : (⟨r.issuerQuestion scope, .ok (some issuer)⟩ : Event) ∈
      ⟨r.issuerQuestion found, .ok (some i)⟩ :: (made ++ tail))
    (ho : issuer.Opens settings opening (.error f))
    (hsub : opening ⊆ ⟨r.issuerQuestion found, .ok (some i)⟩ :: (made ++ tail)) :
    opened = .error f := by
  obtain rfl : issuer = i := by
    rcases List.mem_cons.mp hi with hi | hi
    · cases hi
      rfl
    rcases List.mem_append.mp hi with hi | hi
    · exact absurd ⟨_, hi, rfl⟩ (not_asked_issuerQuestion hmade scope)
    · exact absurd rfl ((htail _ hi).1 _ _ _)
  refine ho.eq_error hmade (ho.subset hsub fun e he => ?_)
  rcases List.mem_cons.mp he with rfl | he
  · exact .inr (by simp [issuerQuestion])
  rcases List.mem_append.mp he with he | he
  · exact .inl he
  · exact .inr (htail e he).2

namespace Retires

variable (h : r.Retires settings events outcome)

include h

theorem asks : ∀ e ∈ events, r.DeletionAsks e.question := by
  have hopen {issuer : Issuer} {opening : List Event} {opened : Except Failure Pki.Session}
      (ho : issuer.Opens settings opening opened) : ∀ e ∈ opening, r.DeletionAsks e.question := by
    intro e he
    rcases ho.question e he with ⟨ns, name, hq⟩ | ⟨s, hq⟩ <;> simp [hq, DeletionAsks]
  cases h with
  | unguarded => simp
  | released => simp [DeletionAsks]
  | blocked _ hs => cases hs <;> simp [issuerQuestion, DeletionAsks]
  | unready => simp [issuerQuestion, DeletionAsks]
  | spared => simp [issuerQuestion, DeletionAsks]
  | unopened _ _ ho =>
    intro e he
    rcases List.mem_cons.mp he with rfl | he
    · simp [issuerQuestion, DeletionAsks]
    · exact hopen ho e he
  | unrevoked hl _ ho =>
    intro e he
    simp only [List.mem_cons, List.mem_append, List.not_mem_nil, or_false] at he
    rcases he with rfl | he | rfl
    · simp [issuerQuestion, DeletionAsks]
    · exact hopen ho e he
    · exact ⟨_, hl, rfl⟩
  | revoked _ hl _ _ _ ho =>
    intro e he
    simp only [List.mem_cons, List.mem_append, List.not_mem_nil, or_false] at he
    rcases he with rfl | he | rfl | rfl
    · simp [issuerQuestion, DeletionAsks]
    · exact hopen ho e he
    · exact ⟨_, hl, rfl⟩
    · rfl

theorem calls_le : (calls events).length ≤ 1 := by
  cases h with
  | unguarded => simp
  | released => simp [Ask.isCall]
  | blocked _ hs => cases hs <;> simp [issuerQuestion, Ask.isCall]
  | unready => simp [issuerQuestion, Ask.isCall]
  | spared => simp [issuerQuestion, Ask.isCall]
  | unopened _ _ ho => simp [issuerQuestion, Ask.isCall, ho.quiet.calls]
  | unrevoked _ _ ho => simp [issuerQuestion, Ask.isCall, ho.quiet.calls]
  | revoked _ _ _ _ _ ho => simp [issuerQuestion, Ask.isCall, ho.quiet.calls]

/-- The finalizer goes where nothing is held, or after the issuer has cleared the request. -/
theorem removes_iff : Asked (.removeFinalizer r) events ↔
    r.metadata.hasFinalizer = true ∧ (¬ r.HoldsCertificate ∨ r.Cleared events) := by
  rw [not_holdsCertificate_iff]
  cases h with
  | unguarded hf => simp [hf]
  | released hf hl => simp [hf, hl]
  | blocked hl hs =>
    obtain ⟨leaf, hl⟩ := Option.isSome_iff_exists.mp hl
    have hno : ¬ r.Cleared events := by
      rintro ⟨scope, issuer, _, hi, _⟩
      cases hs <;> simp [issuerQuestion] at hi
    cases hs <;> simp [hl, hno]
  | unready hl hi =>
    obtain ⟨leaf, hl⟩ := Option.isSome_iff_exists.mp hl
    rw [cleared_cons_iff (by simp)]
    simp [hl, hi]
  | spared hf hs hi hr =>
    rw [cleared_cons_iff (by simp [issuerQuestion])]
    simp [hf, hs, hi, hr]
  | @unopened scope issuer opening f hl hr ho =>
    obtain ⟨leaf, hl⟩ := Option.isSome_iff_exists.mp hl
    have hno : ¬ r.Cleared (⟨r.issuerQuestion scope, .ok (some issuer)⟩ :: opening) := by
      refine not_cleared_of_unsettled hr (not_asked_issuerQuestion ho) fun s leaf answer hc => ?_
      exact absurd ⟨_, hc, rfl⟩ (ho.not_asked (by simp) (by simp))
    simp [hl, hno, ho.not_asked]
  | @unrevoked scope issuer opening leaf session e hl hr ho he =>
    have hno : ¬ r.Cleared (⟨r.issuerQuestion scope, .ok (some issuer)⟩ ::
        (opening ++ [⟨.call session (.revoke leaf .unspecified), .error e⟩])) := by
      refine not_cleared_of_unsettled hr ?_ fun s leaf answer hc hs => ?_
      · intro found hasked
        rcases asked_append.mp hasked with hasked | hasked
        · exact not_asked_issuerQuestion ho found hasked
        · simp [issuerQuestion] at hasked
      · rcases List.mem_append.mp hc with hc | hc
        · exact absurd ⟨_, hc, rfl⟩ (ho.not_asked (by simp) (by simp))
        · cases List.mem_singleton.mp hc
          exact absurd (hs e rfl) (by simp [he])
    simp [hl, hno, ho.not_asked]
  | @revoked scope issuer opening leaf session answer hf hl hs hi hr ho ha removal =>
    have hbuilt := ho.built
    have hyes : r.Cleared (⟨r.issuerQuestion scope, .ok (some issuer)⟩ ::
        (opening ++ [⟨.call session (.revoke leaf .unspecified), answer⟩,
          ⟨.removeFinalizer r, removal⟩])) := by
      refine ⟨scope, issuer, hs, List.mem_cons_self, hi, .inr ⟨session, leaf, answer, ?_, ?_, ha⟩⟩
      · simp [hbuilt]
      · simp
    simp [hf, hyes]

/-- Nothing is asked after the finalizer was to go. -/
theorem removes_last {answer : Except Failure Unit}
    (he : (⟨.removeFinalizer r, answer⟩ : Event) ∈ events) :
    (∃ earlier, events = earlier ++ [⟨.removeFinalizer r, answer⟩] ∧
      ¬ Asked (.removeFinalizer r) earlier) ∧ outcome = answer.map fun _ => .awaitChange := by
  cases h with
  | unguarded => simp at he
  | released =>
    cases List.mem_singleton.mp he
    exact ⟨⟨[], rfl, by simp⟩, rfl⟩
  | blocked _ hs => cases hs <;> simp [issuerQuestion] at he
  | unready => simp [issuerQuestion] at he
  | @spared scope issuer _ _ _ _ removal =>
    have hanswer : answer = removal := by simpa [issuerQuestion] using he
    subst hanswer
    exact ⟨⟨[⟨r.issuerQuestion scope, .ok (some issuer)⟩], rfl, by simp⟩, rfl⟩
  | unopened _ _ ho =>
    rcases List.mem_cons.mp he with he | he
    · simp [issuerQuestion] at he
    · exact absurd ⟨_, he, rfl⟩ (ho.not_asked (by simp) (by simp))
  | unrevoked _ _ ho =>
    simp [issuerQuestion] at he
    exact absurd ⟨_, he, rfl⟩ (ho.not_asked (by simp) (by simp))
  | @revoked scope issuer opening leaf session given _ _ _ _ _ ho _ removal =>
    simp [issuerQuestion] at he
    rcases he with he | rfl
    · exact absurd ⟨_, he, rfl⟩ (ho.not_asked (by simp) (by simp))
    · refine ⟨⟨⟨r.issuerQuestion scope, .ok (some issuer)⟩ ::
        (opening ++ [⟨.call session (.revoke leaf .unspecified), given⟩]), by simp, ?_⟩, rfl⟩
      simp [ho.not_asked]

/-- A client that cannot be made is the failure of the pass. -/
theorem outcome_of_unopened {scope : IssuerScope} {issuer : Issuer} {opening : List Event}
    {f : Failure} (hi : (⟨r.issuerQuestion scope, .ok (some issuer)⟩ : Event) ∈ events)
    (ho : issuer.Opens settings opening (.error f)) (hsub : opening ⊆ events) :
    outcome = .error f := by
  have hasked : Asked (issuer.secretQuestion settings) events := by
    obtain ⟨e, he, hq⟩ := ho.asks_secret
    exact ⟨e, hsub he, hq⟩
  cases h with
  | unguarded => simp at hasked
  | released => simp [Issuer.secretQuestion] at hasked
  | blocked _ hs => cases hs <;> simp [issuerQuestion, Issuer.secretQuestion] at hasked
  | unready => simp [issuerQuestion, Issuer.secretQuestion] at hasked
  | spared => simp [issuerQuestion, Issuer.secretQuestion] at hasked
  | unopened _ _ hmade =>
    have hopened := eq_error_of_opens hmade (List.forall_mem_nil _) (by simpa using hi) ho
      (by simpa using hsub)
    cases hopened
    rfl
  | unrevoked _ _ hmade =>
    exact absurd (eq_error_of_opens hmade (by simp) hi ho hsub) (by simp)
  | revoked _ _ _ _ _ hmade =>
    exact absurd (eq_error_of_opens hmade (by simp) hi ho hsub) (by simp)

/-- A revocation that is not settled is the failure of the pass. -/
theorem outcome_of_unsettled {session : Pki.Session} {leaf : String} {e : PkiError}
    (hc : (⟨.call session (.revoke leaf .unspecified), .error e⟩ : Event) ∈ events)
    (he : e.isRejection = false) : outcome = .error (.pki e) := by
  cases h with
  | unguarded => simp at hc
  | released => simp at hc
  | blocked _ hs => cases hs <;> simp [issuerQuestion] at hc
  | unready => simp [issuerQuestion] at hc
  | spared => simp [issuerQuestion] at hc
  | unopened _ _ ho =>
    rcases List.mem_cons.mp hc with hc | hc
    · simp [issuerQuestion] at hc
    · exact absurd ⟨_, hc, rfl⟩ (ho.not_asked (by simp) (by simp))
  | unrevoked _ _ ho =>
    simp [issuerQuestion] at hc
    rcases hc with hc | ⟨⟨rfl, rfl⟩, hc⟩
    · exact absurd ⟨_, hc, rfl⟩ (ho.not_asked (by simp) (by simp))
    · cases hc
      rfl
  | revoked _ _ _ _ _ ho ha =>
    simp [issuerQuestion] at hc
    rcases hc with hc | ⟨⟨rfl, rfl⟩, hc⟩
    · exact absurd ⟨_, hc, rfl⟩ (ho.not_asked (by simp) (by simp))
    · cases hc
      exact absurd (ha e rfl) (by simp [he])

end Retires

/-- What a pass over a deleted request keeps to. -/
structure DeletionGuard (r : CertificateRequest) (settings : Settings) (events : List Event)
    (outcome : Except Failure Action) : Prop where
  asks : ∀ e ∈ events, r.DeletionAsks e.question
  oneCall : (calls events).length ≤ 1
  removes : Asked (.removeFinalizer r) events ↔
    r.metadata.hasFinalizer = true ∧ (¬ r.HoldsCertificate ∨ r.Cleared events)
  last : ∀ answer, (⟨.removeFinalizer r, answer⟩ : Event) ∈ events →
    (∃ earlier, events = earlier ++ [⟨.removeFinalizer r, answer⟩] ∧
      ¬ Asked (.removeFinalizer r) earlier) ∧ outcome = answer.map fun _ => .awaitChange
  unopened : ∀ scope issuer opening f,
    (⟨r.issuerQuestion scope, .ok (some issuer)⟩ : Event) ∈ events →
    (issuer.openSession settings).Yields opening (.error f) → opening <:+: events →
    outcome = .error f
  unsettled : ∀ session leaf e,
    (⟨.call session (.revoke leaf .unspecified), .error e⟩ : Event) ∈ events →
    e.isRejection = false → outcome = .error (.pki e)

/-- A deleted request of this group is let go only when nothing it holds is left to revoke, and
every failure on the way is the failure of the pass. -/
theorem deletionGuard_of_yields (hg : r.spec.issuerRef.targetsThisGroup = true)
    (hd : r.isDeleted = true) (h : (r.reconcile settings).Yields events outcome) :
    r.DeletionGuard settings events outcome := by
  have hretires := retires_of_courses hg hd (courses_of_yields h)
  refine ⟨hretires.asks, hretires.calls_le, hretires.removes_iff, ?_, ?_, ?_⟩
  · intro answer he
    exact hretires.removes_last he
  · intro scope issuer opening f hi ho hin
    exact hretires.outcome_of_unopened hi (Issuer.opens_of_yields ho) hin.subset
  · intro session leaf e hc he
    exact hretires.outcome_of_unsettled hc he

def sampleDeleted : CertificateRequest where
  metadata := {
    name := some "web", ns := some "shop", deletionTimestamp := some ⟨0, 0, 0⟩
    finalizers := some ["other", finalizerName] }
  spec := { request := "", issuerRef := ⟨Simulation.World.sampleIssuer.name, none, some groupName⟩ }
  status := some { certificate := some "QQ==" }

/-- The PKI refuses the revocation, and the request is let go. -/
theorem deletionGuard_of_refused :
    let run := (sampleDeleted.reconcile {}).result.run Simulation.World.answer
      { Simulation.World.sample with pki := ({} : Pki.InMemory).fail .revoke (.rejected "7" "") }
    sampleDeleted.spec.issuerRef.targetsThisGroup = true ∧ sampleDeleted.isDeleted = true ∧
      run.state.pki.calls = [.revoke "A" .unspecified] ∧
      (run.state.requests.get? "shop/web").map (·.metadata.finalizers) = some (some ["other"]) ∧
      sampleDeleted.DeletionGuard {} run.events run.value :=
  ⟨by decide, by decide, by decide +kernel, by decide +kernel,
    deletionGuard_of_yields (by decide) (by decide) (Attempt.run_yields _ _ _)⟩

end CertBroker.CertificateRequest
