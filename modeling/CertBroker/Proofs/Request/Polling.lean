import CertBroker.Proofs.Cluster.Constant
import CertBroker.Proofs.Pass.Survey
import CertBroker.Proofs.Pass.Tending
import CertBroker.Proofs.Request.Issued
import CertBroker.Proofs.Request.Settled

namespace CertBroker

theorem Issuer.Opens.unbuilt {i : Issuer} {settings : Settings} {events : List Event} {f : Failure}
    (h : i.Opens settings events (.error f)) (s : Pki.Session) :
    (⟨.openSession s, .ok ()⟩ : Event) ∉ events := by
  cases h <;> simp [secretQuestion]

namespace RequestStatus

variable {s : RequestStatus} {now : Time}

/-- The conditions of the types that are kept, in their order. -/
def conditionsOf (s : RequestStatus) (kept : String → Bool) : List Condition :=
  s.conditions.filter fun c => kept c.type

theorem conditionsOf_setCondition {kept : String → Bool} {type : String} (h : kept type = false)
    (s : RequestStatus) (status : ConditionStatus) (reason message : String) (now : Time) :
    (s.setCondition type status reason message now).conditionsOf kept = s.conditionsOf kept :=
  Condition.filter_set kept h ..

/-- The PKI's denial is told by Denied, and nothing else changes. -/
structure Denies (s t : RequestStatus) : Prop where
  denied : ∃ time, t.condition ConditionType.denied =
    some ⟨ConditionType.denied, .yes, some Reason.pki, some Message.pkiDenied, time⟩
  others : t.conditionsOf (· != ConditionType.denied) = s.conditionsOf (· != ConditionType.denied)
  ready : t.condition ConditionType.ready = s.condition ConditionType.ready
  certificate : t.certificate = s.certificate
  ca : t.ca = s.ca
  failureTime : t.failureTime = s.failureTime
  state : t.terminal? = some .deniedByPki

/-- A certificate is taken over: it is stored as a chain, and Approved and Ready tell it. -/
structure Issues (s t : RequestStatus) (c : Pki.IssuedCertificate) : Prop where
  approved : ∃ time, t.condition ConditionType.approved =
    some ⟨ConditionType.approved, .yes, some Reason.pki, some Message.approved, time⟩
  ready : ∃ time, t.condition ConditionType.ready =
    some ⟨ConditionType.ready, .yes, some Reason.issued, some Message.signed, time⟩
  others : t.conditionsOf (fun type => type != ConditionType.approved &&
      type != ConditionType.ready) =
    s.conditionsOf fun type => type != ConditionType.approved && type != ConditionType.ready
  certificate : t.certificate =
    some (Base64.encode (Utf8.encode (TrustChain.buildOrLeaf c.pem).certificate))
  ca : t.ca = (TrustChain.buildOrLeaf c.pem).ca.map fun root => Base64.encode (Utf8.encode root)
  failureTime : t.failureTime = s.failureTime
  state : t.terminal? = some .issued

/-- A failure is told by Ready. The request goes on waiting, unless it was invalid before. -/
structure Stalls (s t : RequestStatus) (f : Failure) : Prop where
  approved : t.condition ConditionType.approved = s.condition ConditionType.approved
  denied : t.condition ConditionType.denied = s.condition ConditionType.denied
  others : t.conditionsOf (· != ConditionType.ready) = s.conditionsOf (· != ConditionType.ready)
  certificate : t.certificate = s.certificate
  ca : t.ca = s.ca
  awaits : s.isInvalid = false → s.Awaits t f
  failed : s.isInvalid = true → t.terminal? = some .failed

theorem denies_of_open (h : s.terminal? = none) (now : Time) :
    s.Denies (s.setCondition ConditionType.denied .yes Reason.pki Message.pkiDenied now) := by
  obtain ⟨hready, hfailed, hdenied, -⟩ := terminal?_eq_none_iff.mp h
  refine ⟨condition_setCondition .., conditionsOf_setCondition (by simp) ..,
    condition_setCondition_of_ne (by decide), rfl, rfl, rfl, ?_⟩
  obtain ⟨time, hcondition⟩ :=
    s.condition_setCondition ConditionType.denied .yes Reason.pki Message.pkiDenied now
  unfold terminal?
  rw [hasTrue_setCondition_of_ne (by decide), hready, readyIs_setCondition_of_ne (by decide),
    hfailed, readyIs_setCondition_of_ne (by decide), hdenied, hcondition]
  rfl

theorem applyFailure_eq (s : RequestStatus) (f : Failure) (now : Time) :
    ∃ failureTime reason message, s.applyFailure f now =
      { s with failureTime }.setCondition ConditionType.ready .no reason message now := by
  unfold applyFailure
  split
  next => exact ⟨_, _, _, rfl⟩
  next => exact ⟨s.failureTime, _, _, rfl⟩

theorem stalls_applyFailure (h : s.terminal? = none) (f : Failure) (now : Time) :
    s.Stalls (s.applyFailure f now) f := by
  have hawaits (hvalid : s.isInvalid = false) := awaits_applyFailure hvalid h f now
  have hfailed (hinvalid : s.isInvalid = true) :
      (s.applyFailure f now).terminal? = some .failed :=
    terminal?_applyFailure_of_invalid hinvalid
  obtain ⟨failureTime, reason, message, heq⟩ := s.applyFailure_eq f now
  rw [heq] at hawaits hfailed ⊢
  exact ⟨condition_setCondition_of_ne (by decide), condition_setCondition_of_ne (by decide),
    conditionsOf_setCondition (by simp) .., rfl, rfl, hawaits, hfailed⟩

end RequestStatus

namespace CertificateRequest

variable {r before moved after current : CertificateRequest} {issuer : Issuer}
  {settings : Settings} {id : String} {events noted : List Event}
  {result outcome : Except Failure Action}

theorem issues_accept (r : CertificateRequest) (c : Pki.IssuedCertificate) (now : Time) :
    r.currentStatus.Issues (r.accept c now).currentStatus c := by
  obtain ⟨time, happroved⟩ := r.currentStatus.condition_setCondition ConditionType.approved .yes
    Reason.pki Message.approved now
  have hothers : (r.currentStatus.setCondition ConditionType.approved .yes Reason.pki
      Message.approved now).conditionsOf
        (fun type => type != ConditionType.approved && type != ConditionType.ready) =
      r.currentStatus.conditionsOf _ :=
    RequestStatus.conditionsOf_setCondition (by simp) ..
  exact ⟨⟨time, (RequestStatus.condition_setCondition_of_ne (by decide)).trans happroved⟩,
    RequestStatus.condition_setCondition ..,
    (RequestStatus.conditionsOf_setCondition (by simp) ..).trans hothers, rfl,
    Option.map_map .., rfl, RequestStatus.terminal?_of_ready RequestStatus.hasTrue_setCondition⟩

/-- What an answer of the PKI makes of a submitted request, and of the pass over it. -/
inductive Concludes (before after : CertificateRequest) (id : String) (settings : Settings) :
    Except PkiError Pki.Request → Except Failure Action → Prop
  | waits {answer : Pki.Request} (h : answer.status = .pending ∨ answer.status = .approved)
      (hkept : after = before) :
      Concludes before after id settings (.ok answer) (.ok (.requeue settings.pendingPollInterval))
  | denied {answer : Pki.Request} (h : answer.status = .denied ∨ answer.status = .canceled)
      (hm : after.metadata = before.metadata)
      (hs : before.currentStatus.Denies after.currentStatus) :
      Concludes before after id settings (.ok answer) (.ok .awaitChange)
  | issued {answer : Pki.Request} {c : Pki.IssuedCertificate} (h : answer.status = .completed)
      (hc : answer.certificate = some c)
      (hm : after.metadata = (before.metadata.recordCertificateId c.id).1)
      (hs : before.currentStatus.Issues after.currentStatus c) :
      Concludes before after id settings (.ok answer) (.ok .awaitChange)
  | failed {answer : Except PkiError Pki.Request} {f : Failure}
      (h : (∃ e, answer = .error e ∧ f = .pki e) ∨
        ∃ a, answer = .ok a ∧ a.status = .completed ∧ a.certificate = none ∧
          f = .pki (.invalidResponse ("request " ++ id ++ " completed without a certificate")))
      (hm : after.metadata = before.metadata)
      (hs : before.currentStatus.Stalls after.currentStatus f) :
      Concludes before after id settings answer (.error f)

theorem Reflects.eq_of_ok {action : Action} (h : moved.Reflects (.ok action) noted after) :
    after = moved := by
  cases h
  rfl

theorem Reflects.stalls {f : Failure} (h : moved.Reflects (.error f) noted after)
    (ho : moved.currentStatus.terminal? = none) :
    moved.currentStatus.Stalls after.currentStatus f := by
  cases h with
  | failed _ now => exact RequestStatus.stalls_applyFailure ho f now

/-- What an answer makes of a request, once it is noted. -/
theorem concludes_of_progress {answer : Pki.Request} {now : Time}
    (ho : before.currentStatus.terminal? = none)
    (hr : (before.progress id settings answer now).1.Reflects
      (before.progress id settings answer now).2 noted after) :
    before.Concludes after id settings (.ok answer)
      (before.progress id settings answer now).2 := by
  unfold progress at hr ⊢
  split at hr
  next h => exact .waits (.inl h) hr.eq_of_ok
  next h => exact .waits (.inr h) hr.eq_of_ok
  next h =>
    cases hr.eq_of_ok
    exact .denied (.inl h) rfl (RequestStatus.denies_of_open ho now)
  next h =>
    cases hr.eq_of_ok
    exact .denied (.inr h) rfl (RequestStatus.denies_of_open ho now)
  next h =>
    split at hr
    next c hc =>
      cases hr.eq_of_ok
      exact .issued h hc rfl (before.issues_accept c now)
    next hc =>
      exact .failed (.inr ⟨answer, rfl, h, hc, rfl⟩) hr.metadata (hr.stalls ho)

/-- Without a client the request stalls; with one there is one call, and its answer decides. -/
inductive Inquires (before after : CertificateRequest) (id : String) (settings : Settings)
    (events : List Event) : Except Failure Action → Prop
  | unopened {f : Failure} (hnone : ∀ s, (⟨.openSession s, .ok ()⟩ : Event) ∉ events)
      (hcalls : calls events = []) (hm : after.metadata = before.metadata)
      (hs : before.currentStatus.Stalls after.currentStatus f) :
      Inquires before after id settings events (.error f)
  | called {session : Pki.Session} {answer : Except PkiError Pki.Request}
      {outcome : Except Failure Action}
      (hopened : (⟨.openSession session, .ok ()⟩ : Event) ∈ events)
      (hcalls : calls events = [⟨.call session (.poll id), answer⟩])
      (hc : before.Concludes after id settings answer outcome) :
      Inquires before after id settings events outcome

theorem Concludes.requestId? {answer : Except PkiError Pki.Request}
    (h : before.Concludes after id settings answer outcome) :
    after.metadata.requestId? = before.metadata.requestId? := by
  cases h with
  | waits _ hkept => rw [hkept]
  | denied _ hm => rw [hm]
  | issued _ _ hm => rw [hm, Metadata.requestId?_recordCertificateId]
  | failed _ hm => rw [hm]

theorem Inquires.requestId? (h : before.Inquires after id settings events outcome) :
    after.metadata.requestId? = before.metadata.requestId? := by
  cases h with
  | unopened _ _ hm => rw [hm]
  | called _ _ hc => exact hc.requestId?

theorem Polls.inquires {result : CertificateRequest × Except Failure Action}
    (h : before.Polls id issuer settings events result)
    (ho : before.currentStatus.terminal? = none) (hr : result.1.Reflects result.2 noted after) :
    before.Inquires after id settings events result.2 := by
  cases h with
  | unopened hopens =>
    exact .unopened hopens.unbuilt hopens.quiet.calls hr.metadata (hr.stalls ho)
  | unanswered hopens e =>
    exact .called (List.mem_append_left _ hopens.built) (by simp [hopens.quiet.calls, Ask.isCall])
      (.failed (.inl ⟨e, rfl, rfl⟩) hr.metadata (hr.stalls ho))
  | answered hopens answer now =>
    exact .called (List.mem_append_left _ hopens.built) (by simp [hopens.quiet.calls, Ask.isCall])
      (concludes_of_progress ho hr)

/-- What is inquired is the same among events without a PKI client. -/
theorem Inquires.around {first last : List Event}
    (h : before.Inquires after id settings events outcome) (hfirst : Offline first)
    (hlast : Offline last) : before.Inquires after id settings (first ++ (events ++ last)) outcome := by
  have hno {s : Pki.Session} {part : List Event} (hpart : Offline part) :
      (⟨.openSession s, .ok ()⟩ : Event) ∉ part := by
    intro hmem
    exact absurd (hpart _ hmem) (by simp [Ask.contactsPki])
  have hcalls {part : List Event} (hpart : Offline part) : calls part = [] := by
    refine Never.filter_eq_nil (hpart.mono fun q hq => ?_)
    cases q <;> first | rfl | cases hq
  cases h with
  | unopened hnone hcall hm hs =>
    exact .unopened (fun s => by simp [hno hfirst, hno hlast, hnone s])
      (by simp [hcalls hfirst, hcalls hlast, hcall]) hm hs
  | called hopened hcall hc =>
    exact .called (List.mem_append_right _ (List.mem_append_left _ hopened))
      (by simp [hcalls hfirst, hcalls hlast, hcall]) hc

end CertificateRequest

/-- A call of the cluster that failed, other than the read of a Secret. -/
def isFailedStoreCall : Event → Bool
  | ⟨.readIssuer _ _ _, .error _⟩ => true
  | ⟨.readCertificate _ _, .error _⟩ => true
  | ⟨.readIngress _ _, .error _⟩ => true
  | e => isFailedWrite e

/-- No call of the cluster fails, but perhaps the read of a Secret. -/
def Reliable (events : List Event) : Prop := ∀ e ∈ events, isFailedStoreCall e = false

instance (events : List Event) : Decidable (Reliable events) :=
  inferInstanceAs (Decidable (∀ e ∈ events, isFailedStoreCall e = false))

theorem reliable_append {first second : List Event} :
    Reliable (first ++ second) ↔ Reliable first ∧ Reliable second := List.forall_mem_append

theorem reliable_cons {e : Event} {events : List Event} :
    Reliable (e :: events) ↔ isFailedStoreCall e = false ∧ Reliable events := List.forall_mem_cons

theorem Objects.Throughout.exists_repeats {reply : (q : Ask) → q.Answer} {o o' : Objects}
    {events : List Event} {e : Event} (h : o.Throughout reply events o') (he : e ∈ events) :
    ∃ p p' : Objects, p.Repeats reply e p' := by
  induction h with
  | rest => cases he
  | next hfirst _ ih =>
    rcases List.mem_cons.mp he with rfl | he
    · exact ⟨_, _, hfirst⟩
    · exact ih he

theorem joinOutcome_ok (outcome : Except Failure Action) :
    joinOutcome outcome (failuresOf (.ok ()) (.ok ())) = outcome := by
  cases outcome <;> rfl

namespace CertificateRequest

variable {r before after current : CertificateRequest} {issuer : Issuer} {settings : Settings}
  {id : String} {events : List Event} {outcome : Except Failure Action} {scope : IssuerScope}

theorem Seeks.eq_found {sought : Except Failure Issuer} (h : r.Seeks events sought)
    (hscope : r.spec.issuerRef.scope = .ok scope)
    (hissuer : ∀ answer, (⟨r.issuerQuestion scope, answer⟩ : Event) ∈ events →
      answer = .ok (some issuer)) : sought = .ok issuer := by
  cases h with
  | unresolved hs =>
    cases hscope.symm.trans hs
  | unread hs f =>
    cases hscope.symm.trans hs
    cases hissuer _ List.mem_cons_self
  | missing hs =>
    cases hscope.symm.trans hs
    cases hissuer _ List.mem_cons_self
  | found hs found =>
    cases hscope.symm.trans hs
    cases hissuer _ List.mem_cons_self
    rfl

theorem Guards.eq_or_mem (h : r.Guards issuer events (.ok current)) :
    current = r ∨ (⟨.addFinalizer r, .ok current⟩ : Event) ∈ events := by
  cases h with
  | content => exact .inl rfl
  | written => exact .inr List.mem_cons_self

theorem Guards.not_failed {f : Failure} (h : r.Guards issuer events (.error f)) :
    ¬ Reliable events := by
  cases h with
  | written => exact fun hstore => nomatch hstore _ List.mem_cons_self

theorem Links.eq_ok {linked : Except Failure Unit} (h : r.Links events linked)
    (hstore : Reliable events) : linked = .ok () := by
  cases h with
  | nothing => rfl
  | unread => exact nomatch hstore _ List.mem_cons_self
  | orphaned => rfl
  | linked => rfl
  | written =>
    cases linked with
    | ok => rfl
    | error f => exact nomatch hstore _ (List.mem_cons_of_mem _ List.mem_cons_self)

theorem Advances.polls {result : CertificateRequest × Except Failure Action}
    (h : r.Advances issuer settings events result)
    (hd : r.currentStatus.isDeniedByApprover = false) (hi : r.metadata.requestId? = some id) :
    r.Polls id issuer settings events result := by
  cases h with
  | denied hyes => simp [hd] at hyes
  | polled _ hi' hp =>
    cases hi.symm.trans hi'
    exact hp
  | submitted _ hno => cases hi.symm.trans hno
  | waiting _ hno => cases hi.symm.trans hno

theorem eq_ok_of_stored {stored : Except Failure Unit}
    (h : isFailedStoreCall ⟨.storeRequest before after, stored⟩ = false) : stored = .ok () := by
  cases stored with
  | ok => rfl
  | error f => cases h

theorem Reflects.offline {result : Except Failure Action} (h : r.Reflects result events after) :
    Offline events := by
  cases h <;> simp [Ask.contactsPki]

/-- A pass over a submitted request that is open polls the PKI once, if it can make a client, and
stores the request once; what it stores and answers is decided by the PKI's answer. -/
theorem inquiry_of_yields (h : (r.reconcile settings).Yields events outcome)
    (hgroup : r.spec.issuerRef.targetsThisGroup = true)
    (hscope : r.spec.issuerRef.scope = .ok scope) (halive : r.isDeleted = false)
    (hopen : r.currentStatus.terminal? = none)
    (hundenied : r.currentStatus.isDeniedByApprover = false)
    (hid : r.metadata.requestId? = some id)
    (hissuer : ∀ answer, (⟨r.issuerQuestion scope, answer⟩ : Event) ∈ events →
      answer = .ok (some issuer))
    (hready : issuer.isReady = true) (hstore : Reliable events)
    (hguard : ∀ q, (⟨.addFinalizer r, .ok q⟩ : Event) ∈ events → r.Returned q) :
    ∃ before after, (before = r.withStatus ∨
        ∃ q, (⟨.addFinalizer r, .ok q⟩ : Event) ∈ events ∧ before = q.withStatus) ∧
      events.filter (·.question.storesRequest) = [⟨.storeRequest before after, .ok ()⟩] ∧
      after.metadata.requestId? = some id ∧
      before.Inquires after id settings events outcome := by
  cases courses_of_yields h with
  | foreign hno => simp [hno] at hgroup
  | released _ hd => simp [hd] at halive
  | unresolved _ _ hs => cases hs.eq_found hscope hissuer
  | unready _ _ hs hi =>
    cases hs.eq_found hscope hissuer
    simp [hi] at hready
  | finished _ hd => simp [hd] at halive
  | @proceeded seeking proceeding found _ _ _ hs _ hp =>
    obtain ⟨hseek, hrest⟩ := reliable_append.mp hstore
    cases hs.eq_found hscope fun answer hmem => hissuer answer (List.mem_append_left _ hmem)
    have hstart {guarding : List Event} {current : CertificateRequest}
        (hg : r.Guards issuer guarding (.ok current)) (hsub : guarding ⊆ proceeding) :
        r.Returned current := by
      rcases hg.eq_or_mem with hsame | hmem
      · rw [hsame]
        exact .refl r
      · exact hguard current (List.mem_append_right _ (hsub hmem))
    cases hp with
    | unguarded hg => exact absurd hrest hg.not_failed
    | closed hg ht =>
      have hsame := (hstart hg fun _ he => he).terminal?
      rw [hopen, ht] at hsame
      cases hsame
    | issued hg ht =>
      have hsame := (hstart hg (List.subset_append_left _ _)).terminal?
      rw [hopen, ht] at hsame
      cases hsame
    | @worked guarding advancing noted linking current moved after result linked hg _ ha hr _ hl =>
      have hcurrent := hstart hg (List.subset_append_left _ _)
      simp only [reliable_append, reliable_cons] at hrest
      obtain ⟨-, -, -, hstored, hlinking⟩ := hrest
      cases eq_ok_of_stored hstored
      cases hl.eq_ok hlinking
      have ho : current.withStatus.currentStatus.terminal? = none :=
        hcurrent.terminal?.trans hopen
      have hd : current.withStatus.currentStatus.isDeniedByApprover = false :=
        hcurrent.isDeniedByApprover.trans hundenied
      have hi : current.withStatus.metadata.requestId? = some id := hcurrent.requestId?.trans hid
      have hinquires := (ha.polls hd hi).inquires ho hr
      refine ⟨current.withStatus, after, ?_, ?_, hinquires.requestId?.trans hi, ?_⟩
      · rcases hg.eq_or_mem with hsame | hmem
        · exact .inl (congrArg withStatus hsame)
        · exact .inr ⟨current, List.mem_append_right _ (List.mem_append_left _ hmem), rfl⟩
      · simp only [List.filter_append, hs.quiet.silent.unstored.filter_eq_nil,
          hg.unstored.filter_eq_nil, ha.silent.unstored.filter_eq_nil,
          hr.quiet.silent.unstored.filter_eq_nil, List.nil_append]
        rw [List.filter_cons_of_pos rfl, hl.quiet.silent.unstored.filter_eq_nil]
      · rw [joinOutcome_ok, ← List.append_assoc]
        exact hinquires.around (never_append.mpr ⟨hs.offline, hg.offline⟩)
          (by simp [hr.offline, hl.offline, Ask.contactsPki])

/-- The world of the sample, whose PKI has denied the request. -/
def sampleDenying : Simulation.World :=
  { Simulation.World.sample with
    pki := ({} : Pki.InMemory).setRequest { id := "req-1", status := .denied } }

def sampleDenial : Program.Run Ask Ask.Answer (Except Failure Action) Simulation.World :=
  (sampleSubmitted.reconcile {}).result.run Simulation.World.answer sampleDenying

/-- The request is given its finalizer first, and is denied then by the PKI. -/
theorem inquiry_of_denial :
    (∃ before after, (before = sampleSubmitted.withStatus ∨
        ∃ q, (⟨.addFinalizer sampleSubmitted, .ok q⟩ : Event) ∈ sampleDenial.events ∧
          before = q.withStatus) ∧
      sampleDenial.events.filter (·.question.storesRequest) =
        [⟨.storeRequest before after, .ok ()⟩] ∧
      after.metadata.requestId? = some "req-1" ∧
      before.Inquires after "req-1" {} sampleDenial.events sampleDenial.value) ∧
    sampleDenial.state.pki.calls = [.poll "req-1"] ∧
    (sampleDenial.state.requests.get? "shop/web").map (·.currentStatus.terminal?) =
      some (some .deniedByPki) := by
  have hthroughout := (Objects.throughout_run (.refl sampleDenying)
    (sampleSubmitted.reconcile {}).result (List.all_eq_true.mp (by decide +kernel))).1
  have hissuer (answer : Except Failure (Option Issuer))
      (hmem : (⟨sampleSubmitted.issuerQuestion .namespaced, answer⟩ : Event) ∈
        sampleDenial.events) : answer = .ok (some Simulation.World.sampleIssuer) := by
    obtain ⟨o, o', hrepeats⟩ := hthroughout.exists_repeats hmem
    have hanswer := hrepeats.unique (p := o) (.replied rfl rfl) rfl (.inl rfl)
    have hfound : sampleDenying.issuers.get? (issuerKey .namespaced "shop" "pki") =
        some Simulation.World.sampleIssuer := by decide +kernel
    exact hanswer.symm.trans (congrArg Except.ok hfound)
  have hguard (q : CertificateRequest)
      (hmem : (⟨.addFinalizer sampleSubmitted, .ok q⟩ : Event) ∈ sampleDenial.events) :
      sampleSubmitted.Returned q := by
    obtain ⟨o, o', hrepeats⟩ := hthroughout.exists_repeats hmem
    exact (hrepeats.guards rfl).1
  exact ⟨inquiry_of_yields (Attempt.run_yields Simulation.World.answer _ sampleDenying)
    (by decide) rfl (by decide) (by decide) (by decide) (by decide) hissuer (by decide)
    (by decide +kernel) hguard, by decide +kernel, by decide +kernel⟩

end CertificateRequest

end CertBroker
