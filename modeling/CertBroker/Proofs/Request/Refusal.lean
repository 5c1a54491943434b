import CertBroker.Proofs.Pass.Course
import CertBroker.Proofs.Pass.Genuine
import CertBroker.Proofs.Pass.Verdict

namespace CertBroker.CertificateRequest

variable {r current moved after : CertificateRequest} {issuer : Issuer} {settings : Settings}
  {events seeking guarding tail noted : List Event} {outcome result : Except Failure Action}
  {f : Failure} {now : Time}

theorem Seeks.yields (h : r.Seeks events (.ok issuer)) :
    r.findIssuer.Yields events (.ok issuer) := by
  cases h with
  | @found scope hs issuer =>
    simp only [findIssuer, hs, Attempt.yields_bind, Attempt.yields_ofExcept]
    refine .inr ⟨scope, [], _, rfl, ⟨rfl, rfl⟩, .inr ⟨some issuer,
      [⟨r.issuerQuestion scope, .ok (some issuer)⟩], [], rfl, ?_, ?_⟩⟩
    · exact Attempt.yields_issuer.mpr rfl
    · exact Attempt.yields_pure.mpr ⟨rfl, rfl⟩

theorem Guards.yields (h : r.Guards issuer events (.ok current)) :
    (r.guarded issuer).Yields events (.ok current) := by
  cases h with
  | content hf =>
    have hno : (issuer.spec.revokeCertificates && !r.metadata.hasFinalizer) = false := hf
    rw [guarded, hno]
    exact Attempt.yields_pure.mpr ⟨rfl, rfl⟩
  | written hf =>
    have hyes : (issuer.spec.revokeCertificates && !r.metadata.hasFinalizer) = true := hf
    rw [guarded, hyes]
    exact Attempt.yields_addFinalizer.mpr rfl

/-- A pass that works on a request moves it on, and writes down what came of that. -/
theorem Enters.advances (he : r.Enters issuer current seeking guarding)
    (h : (r.reconcile settings).Yields (seeking ++ (guarding ++ tail)) outcome) :
    ∃ advancing moved result rest, tail = advancing ++ rest ∧
      Program.Trace (current.withStatus.advance issuer settings) advancing (moved, result) ∧
      (persistOutcome current.withStatus moved result).Yields rest outcome := by
  have hunder : r.reconcile settings = r.underIssuer settings := by
    simp [reconcile, he.group, he.alive]
  rw [hunder, underIssuer] at h
  -- The events of both parts are known, so the pass is what follows them.
  have h := h.rest_of_bind he.seeks.yields
  simp only [he.ready, he.alive, Bool.not_true, Bool.false_eq_true, if_false] at h
  rw [proceed] at h
  have h := h.rest_of_bind he.guards.yields
  simp only at h
  split at h
  next t ht => exact absurd (ht.symm.trans he.unfinished) (by simp)
  next =>
    simp only [Attempt.yields_bind, Attempt.yields_lift] at h
    rcases h with ⟨f, ⟨_, _, hf⟩, _⟩ | ⟨advanced, advancing, rest, rfl, ⟨_, ha, hok⟩, h⟩
    · exact absurd hf (by simp)
    cases hok
    exact ⟨advancing, _, _, rest, rfl, ha, h⟩

/-- How a pass goes on that works on a request. -/
theorem Enters.goesOn (he : r.Enters issuer current seeking guarding)
    (h : (r.reconcile settings).Yields (seeking ++ (guarding ++ tail)) outcome) :
    ∃ advancing moved result noted after stored linking linked,
      tail = advancing ++ (noted ++ ⟨.storeRequest current.withStatus after, stored⟩ :: linking) ∧
      Program.Trace (current.withStatus.advance issuer settings) advancing (moved, result) ∧
      moved.Reflects result noted after ∧ after.Links linking linked := by
  obtain ⟨advancing, moved, result, rest, rfl, ha, h⟩ := he.advances h
  obtain ⟨noted, after, stored, linking, linked, rfl, hr, hl, -⟩ := persistOutcome_yields h
  exact ⟨advancing, moved, result, noted, after, stored, linking, linked, rfl, ha, hr, hl⟩

/-- Moving the request on fails, and the pass goes on to write that down. -/
def FailsWith (r : CertificateRequest) (issuer : Issuer) (settings : Settings)
    (tail : List Event) (f : Failure) : Prop :=
  ∃ moved advancing rest, tail = advancing ++ rest ∧
    Program.Trace (r.advance issuer settings) advancing (moved, .error f)

structure SubmissionFails (r : CertificateRequest) (issuer : Issuer) (settings : Settings)
    (tail : List Event) (f : Failure) : Prop where
  undenied : r.currentStatus.isDeniedByApprover = false
  fresh : r.metadata.requestId? = none
  approved : r.currentStatus.hasTrue ConditionType.approved = true
  failed : ∃ sending rest, tail = sending ++ rest ∧
    (r.send issuer settings).Yields sending (.error f)

/-- Submitting the request fails for good. -/
def SubmissionRefused (r : CertificateRequest) (issuer : Issuer) (settings : Settings)
    (tail : List Event) (f : Failure) : Prop :=
  r.SubmissionFails issuer settings tail f ∧
    (f.kind = .malformedRequest ∨ f.kind = .pkiRejection)

theorem isFinal_iff : f.isFinal = true ↔ f.kind = .malformedRequest ∨ f.kind = .pkiRejection := by
  unfold Failure.isFinal
  cases f.kind <;> simp

theorem advance_eq_submit (hd : r.currentStatus.isDeniedByApprover = false)
    (hi : r.metadata.requestId? = none)
    (ha : r.currentStatus.hasTrue ConditionType.approved = true) :
    r.advance issuer settings = r.submit issuer settings := by
  simp [advance, hd, hi, ha]

/-- A failing poll leaves the request alone, a failing submission may leave its mark. -/
theorem fails_of_advance {advancing : List Event}
    (h : Program.Trace (r.advance issuer settings) advancing (moved, .error f)) :
    (r.metadata.requestId?.isSome = true ∧ moved = r) ∨
      ∃ sending now, advancing = sending ++ [⟨.now, now⟩] ∧ moved = r.notSubmitted f now ∧
        r.SubmissionFails issuer settings advancing f := by
  generalize hresult : (moved, (Except.error f : Except Failure Action)) = result at h
  cases advances_of_trace h with
  | denied => cases hresult
  | polled hd hi hp =>
    refine .inl ⟨by simp [hi], ?_⟩
    cases hp with
    | unopened =>
      cases hresult
      rfl
    | unanswered =>
      cases hresult
      rfl
    | answered ho answer now =>
      -- Of all answers only a completed request without a certificate is a failure.
      unfold progress at hresult
      split at hresult
      next => cases hresult
      next => cases hresult
      next => cases hresult
      next => cases hresult
      next =>
        split at hresult
        next => cases hresult
        next =>
          cases hresult
          rfl
  | submitted hd hi ha =>
    rw [advance_eq_submit hd hi ha] at h
    simp only [submit, Program.trace_bind_iff, Attempt.trace_result, Ask.trace_time_iff] at h
    obtain ⟨sent, sending, _, rfl, hs, now, _, _, rfl, rfl, h⟩ := h
    cases sent with
    | ok id =>
      obtain ⟨rfl, rfl⟩ := Program.trace_done_iff.mp h
      cases hresult
    | error g =>
      obtain ⟨rfl, rfl⟩ := Program.trace_done_iff.mp h
      cases hresult
      exact .inr ⟨sending, now, rfl, rfl, hd, hi, ha, sending, _, rfl, hs⟩
  | waiting => cases hresult

theorem SubmissionFails.append (h : r.SubmissionFails issuer settings tail f)
    (rest : List Event) : r.SubmissionFails issuer settings (tail ++ rest) f := by
  obtain ⟨sending, others, rfl, hsend⟩ := h.failed
  exact ⟨h.undenied, h.fresh, h.approved, sending, others ++ rest, List.append_assoc _ _ _, hsend⟩

theorem SubmissionFails.eq_error {advancing rest : List Event}
    (h : r.SubmissionFails issuer settings (advancing ++ rest) f)
    (ha : Program.Trace (r.advance issuer settings) advancing (moved, result)) :
    result = .error f ∧
      ∃ now, (⟨.now, now⟩ : Event) ∈ advancing ∧ moved = r.notSubmitted f now := by
  obtain ⟨sending, others, hevents, hsend⟩ := h.failed
  rw [advance_eq_submit h.undenied h.fresh h.approved] at ha
  simp only [submit, Program.trace_bind_iff, Attempt.trace_result, Ask.trace_time_iff] at ha
  obtain ⟨sent, sending', _, rfl, hs, now, _, _, rfl, rfl, hlast⟩ := ha
  rw [List.append_assoc] at hevents
  obtain ⟨rfl, rfl, -⟩ := Program.Trace.unique hs hsend hevents
  obtain ⟨-, hlast⟩ := Program.trace_done_iff.mp hlast
  cases hlast
  exact ⟨rfl, now, by simp, rfl⟩

/-- Moving a request on never makes it failed; only writing down a failure does. -/
theorem Advances.not_failed {advancing : List Event}
    {result : CertificateRequest × Except Failure Action}
    (ha : r.Advances issuer settings advancing result)
    (hn : r.currentStatus.readyIs .no Reason.failed = false) :
    result.1.currentStatus.readyIs .no Reason.failed = false := by
  cases ha with
  | denied hd now => exact RequestStatus.readyIs_setCondition
  | polled hd hi hp =>
    cases hp with
    | unopened => exact hn
    | unanswered => exact hn
    | answered ho answer now =>
      unfold progress
      split
      next => exact hn
      next => exact hn
      next => exact (RequestStatus.readyIs_setCondition_of_ne (by decide)).trans hn
      next => exact (RequestStatus.readyIs_setCondition_of_ne (by decide)).trans hn
      next =>
        split
        next => exact RequestStatus.readyIs_setCondition
        next => exact hn
  | submitted hd hi happroved hs =>
    cases hs with
    | accepted => exact RequestStatus.readyIs_setCondition
    | @failed sending f hs now =>
      unfold notSubmitted
      split
      next => exact (RequestStatus.readyIs_setCondition_of_ne (by decide)).trans hn
      next => exact hn
  | waiting => exact hn

/-- Why a request is refused for good: its signing request is not base64 of a text, or names
nothing that could be checked where the issuer asks for that, or the PKI refuses it. -/
inductive Refusal (r : CertificateRequest) (issuer : Issuer) (tail : List Event) : Failure → Prop
  | unreadable {f : Failure} (h : r.csrText = .error f) : Refusal r issuer tail f
  | unnamed {checker : DnsChecker} {csr : String} {f : Failure}
      (hc : issuer.spec.dnsChecker = some checker) (h : r.csrText = .ok csr)
      (hn : NameCheck.names? (Utf8.encode csr) = .error f) : Refusal r issuer tail f
  | rejected {session : Pki.Session} {call : Pki.Call} {code message : String}
      (hs : (Ask.call session call).isSubmission = true)
      (h : (⟨.call session call, .error (.rejected code message)⟩ : Event) ∈ tail) :
      Refusal r issuer tail (.pki (.rejected code message))

theorem Refusal.isFinal (h : r.Refusal issuer tail f) :
    f.kind = .malformedRequest ∨ f.kind = .pkiRejection := by
  cases h with
  | unreadable h =>
    unfold csrText at h
    split at h
    next =>
      cases h
      exact .inl rfl
    next =>
      obtain ⟨_, -, rfl⟩ := mapError_eq_error.mp h
      exact .inl rfl
  | unnamed _ _ hn =>
    obtain ⟨_, -, rfl⟩ := mapError_eq_error.mp hn
    exact .inl rfl
  | rejected => exact .inr rfl

theorem refusal_of_call {session : Pki.Session} {call : Pki.Call} {e : PkiError}
    (hs : (Ask.call session call).isSubmission = true)
    (hm : (⟨.call session call, .error e⟩ : Event) ∈ tail) (hf : (Failure.pki e).isFinal = true) :
    r.Refusal issuer tail (.pki e) := by
  cases e with
  | rejected code message => exact .rejected hs hm
  | _ => cases hf

theorem isFinal_of_persistence (h : f.kind = .persistence) : f.isFinal = false := by
  rw [Failure.isFinal, h]

/-- The check of names fails for good only if the names cannot be read. -/
theorem Gates.refusal {csr : String} {gate : List Event} (hcsr : r.csrText = .ok csr)
    (h : Gates issuer settings csr gate (.error f)) (hf : f.isFinal = true) :
    r.Refusal issuer tail f := by
  cases h with
  | checked hc hr =>
    cases hr with
    | unaddressed ha =>
      have hconfig : f.isFinal = false := by
        unfold NameCheck.server? at ha
        simp only at ha
        split at ha
        next => cases ha
        next =>
          split at ha
          next => cases ha
          next =>
            cases ha
            rfl
      simp [hconfig] at hf
    | unread ha hn => exact .unnamed hc hcsr hn
    | @stopped _ _ _ _ answer _ ha hn hv =>
      cases answer with
      | found => cases hv
      | failed detail =>
        cases hv
        cases hf
      | noAnswer =>
        cases hv
        cases hf

theorem Opens.not_final {opening : List Event} (h : issuer.Opens settings opening (.error f))
    (hg : ∀ e ∈ opening, Genuine e) : f.isFinal = false := by
  cases h with
  | unread =>
    have hkind : f.kind = .persistence := hg _ List.mem_cons_self
    exact isFinal_of_persistence hkind
  | missing => rfl
  | unusable h =>
    obtain ⟨_, -, rfl⟩ := mapError_eq_error.mp h
    rfl
  | refused h e =>
    have hopen : e.isRejection = false := hg _ (List.mem_cons_of_mem _ List.mem_cons_self)
    cases e with
    | rejected => cases hopen
    | _ => rfl

theorem Finds.not_final {family : List Event} (h : r.Finds family (.error f))
    (hg : ∀ e ∈ family, Genuine e) : f.isFinal = false := by
  cases h with
  | unread =>
    have hkind : f.kind = .persistence := hg _ List.mem_cons_self
    exact isFinal_of_persistence hkind
  | missing => rfl

theorem Dresses.not_final {parent : Option Certificate} {dressing : List Event}
    (h : r.Dresses parent dressing (.error f)) (hg : ∀ e ∈ dressing, Genuine e) :
    f.isFinal = false := by
  cases h with
  | unread =>
    have hkind : f.kind = .persistence := hg _ List.mem_cons_self
    exact isFinal_of_persistence hkind

theorem Prepares.refusal {sending : List Event} (h : r.Prepares issuer settings sending (.error f))
    (hg : ∀ e ∈ sending, Genuine e) (hf : f.isFinal = true) : r.Refusal issuer tail f := by
  cases h with
  | undecoded h => exact .unreadable h
  | barred hcsr hgate => exact hgate.refusal hcsr hf
  | orphaned hcsr hgate hp =>
    simp [hp.not_final fun e he => hg e (by simp [he])] at hf
  | unopened hcsr hgate hp ho =>
    simp [Opens.not_final ho fun e he => hg e (by simp [he])] at hf

/-- With answers as the store gives them, a submission fails for good for these reasons only. -/
theorem Sends.refusal {sending : List Event} (h : r.Sends issuer settings sending (.error f))
    (hg : ∀ e ∈ sending, Genuine e) (hf : f.isFinal = true) (hsub : sending ⊆ tail) :
    r.Refusal issuer tail f := by
  generalize houtcome : (Except.error f : Except Failure String) = outcome at h
  cases h with
  | unprepared hp =>
    cases houtcome
    exact hp.refusal hg hf
  | @renewed _ csr id _ session hp ht answer =>
    obtain ⟨e, rfl, rfl⟩ := mapError_eq_error.mp houtcome.symm
    have hm : (⟨.call session (.renew id csr), .error e⟩ : Event) ∈ tail := hsub (by simp)
    exact refusal_of_call rfl hm hf
  | undressed hp ht hd =>
    cases houtcome
    simp [hd.not_final fun e he => hg e (by simp [he])] at hf
  | @enrolled _ _ csr parent session ingress hp ht hd answer =>
    obtain ⟨e, rfl, rfl⟩ := mapError_eq_error.mp houtcome.symm
    have hm : (⟨.call session (.enroll (enrollment issuer.spec parent ingress csr)), .error e⟩ :
      Event) ∈ tail := hsub (by simp)
    exact refusal_of_call rfl hm hf

/-- How a pass over an open request leaves it, for what the pass was answered. -/
structure Judges (r : CertificateRequest) (issuer : Issuer) (settings : Settings)
    (tail : List Event) (after : CertificateRequest) : Prop where
  failed_iff : after.currentStatus.readyIs .no Reason.failed = true ↔
    ∃ f, r.SubmissionRefused issuer settings tail f
  refused : ∀ f, r.SubmissionRefused issuer settings tail f →
    ∃ now, (⟨.now, now⟩ : Event) ∈ tail ∧ r.currentStatus.Fails after.currentStatus f now
  failing : ∀ f, r.FailsWith issuer settings tail f →
    ¬ r.SubmissionRefused issuer settings tail f →
    r.currentStatus.Awaits after.currentStatus f
  refusal_iff : (∀ e ∈ tail, Genuine e) → ∀ f, r.SubmissionFails issuer settings tail f →
    ((f.kind = .malformedRequest ∨ f.kind = .pkiRejection) ↔ r.Refusal issuer tail f)

theorem judges_of_advance {advancing rest : List Event}
    (ha : Program.Trace (r.advance issuer settings) advancing (moved, result))
    (hr : moved.Reflects result noted after) (hsub : noted ⊆ rest)
    (ht : r.currentStatus.terminal? = none) (hi : r.currentStatus.isInvalid = false) :
    r.Judges issuer settings (advancing ++ rest) after := by
  have hnone : r.currentStatus.readyIs .no Reason.failed = false :=
    (RequestStatus.terminal?_eq_none_iff.mp ht).2.1
  have hrefused : ∀ f, r.SubmissionRefused issuer settings (advancing ++ rest) f →
      ∃ now, (⟨.now, now⟩ : Event) ∈ advancing ++ rest ∧
        r.currentStatus.Fails after.currentStatus f now := by
    rintro f ⟨hfails, hfinal⟩
    -- The submission leaves its mark, and the failure that is written down finds it there.
    obtain ⟨rfl, noted, -, rfl⟩ := hfails.eq_error ha
    rw [notSubmitted, isFinal_iff.mpr hfinal, if_pos rfl] at hr
    cases hr with
    | failed _ now =>
      exact ⟨now, List.mem_append_right _ (hsub List.mem_cons_self),
        RequestStatus.fails_applyFailure r.currentStatus f noted now⟩
  have hfailing : ∀ f, r.FailsWith issuer settings (advancing ++ rest) f →
      ¬ r.SubmissionRefused issuer settings (advancing ++ rest) f →
      r.currentStatus.Awaits after.currentStatus f := by
    rintro f ⟨moved', advancing', rest', hevents, ha'⟩ hopen
    obtain ⟨rfl, hsame, rfl⟩ := Program.Trace.unique ha ha' hevents
    cases hsame
    -- Without the mark the request is as it was before, so nothing of it counts as failed.
    have hkept : moved = r := by
      rcases fails_of_advance ha with ⟨-, hkept⟩ | ⟨sending, now, -, hmoved, hfails⟩
      · exact hkept
      · have hfinal : f.isFinal = false := Bool.eq_false_iff.mpr fun hyes =>
          hopen ⟨hfails.append rest, isFinal_iff.mp hyes⟩
        rw [hmoved, notSubmitted, hfinal]
        rfl
    subst hkept
    cases hr with
    | failed _ now => exact RequestStatus.awaits_applyFailure hi ht f now
  refine ⟨⟨fun hfailed => ?_, ?_⟩, hrefused, hfailing, ?_⟩
  · cases hresult : result with
    | ok action =>
      rw [hresult] at hr
      cases hr
      have hno := (advances_of_trace ha).not_failed hnone
      exact absurd (hfailed.symm.trans hno) (by simp)
    | error f =>
      rw [hresult] at ha
      by_cases hf : r.SubmissionRefused issuer settings (advancing ++ rest) f
      · exact ⟨f, hf⟩
      · obtain ⟨time, hready⟩ := (hfailing f ⟨moved, advancing, rest, rfl, ha⟩ hf).ready
        rw [RequestStatus.readyIs, hready] at hfailed
        simp [Condition.reasonText, Reason.pending, Reason.failed] at hfailed
  · rintro ⟨f, hf⟩
    obtain ⟨now, -, hfails⟩ := hrefused f hf
    obtain ⟨time, hready⟩ := hfails.ready
    rw [RequestStatus.readyIs, hready]
    rfl
  · intro hg f hfails
    refine ⟨fun hfinal => ?_, Refusal.isFinal⟩
    obtain ⟨sending, others, hevents, hsend⟩ := hfails.failed
    rw [hevents] at hg ⊢
    exact (sends_of_yields hsend).refusal (fun e he => hg e (List.mem_append_left _ he))
      (isFinal_iff.mpr hfinal) (List.subset_append_left _ _)

/-- A pass that works on a request, as it finds it once the finalizer is there, stores it once.
It leaves the request failed exactly if the submission was refused for good, with the reason of it;
every other failure leaves the request open, and shows on Ready. A pass that does not get so far
neither stores nor submits the request. -/
theorem verdict_of_yields (h : (r.reconcile settings).Yields events outcome) :
    (∀ issuer current seeking guarding tail, r.Enters issuer current seeking guarding →
      events = seeking ++ (guarding ++ tail) → current.currentStatus.isInvalid = false →
      ∃ after stored,
        events.filter (·.question.storesRequest) =
          [⟨.storeRequest current.withStatus after, stored⟩] ∧
        current.withStatus.Judges issuer settings tail after) ∧
    ((¬ ∃ issuer current seeking guarding tail, r.Enters issuer current seeking guarding ∧
        events = seeking ++ (guarding ++ tail)) →
      Unstored events ∧ Unsubmitted events) := by
  constructor
  · rintro issuer current seeking guarding tail henters rfl hi
    obtain ⟨advancing, moved, result, noted, after, stored, linking, linked, rfl, ha, hr, hl⟩ :=
      henters.goesOn h
    refine ⟨after, stored, ?_, judges_of_advance ha hr (List.subset_append_left _ _)
      henters.unfinished hi⟩
    have hseeking := henters.seeks.quiet.silent.unstored.filter_eq_nil
    have hguarding := henters.guards.unstored.filter_eq_nil
    have hadvancing := (advances_of_trace ha).silent.unstored.filter_eq_nil
    have hnoted := hr.quiet.silent.unstored.filter_eq_nil
    have hlinking := hl.quiet.silent.unstored.filter_eq_nil
    simp only [List.filter_append, hseeking, hguarding, hadvancing, hnoted, List.nil_append]
    rw [List.filter_cons_of_pos rfl, hlinking]
  · intro hnone
    rcases (courses_of_yields h).works_or_unstored with hw | ⟨hu, hs⟩
    · cases hw with
      | stored henters ha hr stored hl => exact absurd ⟨_, _, _, _, _, henters, rfl⟩ hnone
    · exact ⟨hs, hu⟩

/-- An approved request whose signing request is not base64. -/
def sampleUnreadable : CertificateRequest where
  metadata := { name := some "web", ns := some "shop", finalizers := some [finalizerName] }
  spec := { request := "?", issuerRef := ⟨"pki", none, some groupName⟩ }
  status := some { conditions := [⟨ConditionType.approved, .yes, none, none, none⟩] }

theorem verdict_of_unreadable :
    let run := (sampleUnreadable.reconcile {}).result.run Simulation.World.answer .sample
    ∃ after stored f, run.events.filter (·.question.storesRequest) =
        [⟨.storeRequest sampleUnreadable.withStatus after, stored⟩] ∧
      sampleUnreadable.csrText = .error f ∧
      after.currentStatus.readyIs .no Reason.failed = true ∧
      ∃ now, sampleUnreadable.currentStatus.Fails after.currentStatus f now := by
  intro run
  obtain ⟨f, hcsr⟩ : ∃ f, sampleUnreadable.csrText = .error f := by
    have hnone : sampleUnreadable.csrText.toOption = none := by decide +kernel
    cases hcsr : sampleUnreadable.csrText with
    | ok csr => simp [hcsr, Except.toOption] at hnone
    | error f => exact ⟨f, rfl⟩
  have hverdict := verdict_of_yields (Attempt.run_yields Simulation.World.answer
    (sampleUnreadable.reconcile {}) .sample)
  have henters : sampleUnreadable.Enters Simulation.World.sampleIssuer sampleUnreadable
      [⟨sampleUnreadable.issuerQuestion .namespaced,
        .ok (some Simulation.World.sampleIssuer)⟩] [] :=
    ⟨by decide, by decide, .found rfl _, by decide, .content (by decide), by decide⟩
  obtain ⟨after, stored, hstored, hjudges⟩ :=
    hverdict.1 _ _ _ _ (run.events.drop 1) henters rfl (by decide)
  have hreason : sampleUnreadable.Refusal Simulation.World.sampleIssuer [] f := .unreadable hcsr
  have hrefused : sampleUnreadable.withStatus.SubmissionRefused Simulation.World.sampleIssuer {}
      (run.events.drop 1) f := by
    refine ⟨⟨by decide, by decide, by decide, [], run.events.drop 1, rfl, ?_⟩, hreason.isFinal⟩
    exact Attempt.yields_bind.mpr (.inl ⟨f, Attempt.yields_ofExcept.mpr ⟨rfl, hcsr.symm⟩, rfl⟩)
  obtain ⟨now, -, hfails⟩ := hjudges.refused f hrefused
  exact ⟨after, stored, f, hstored, hcsr, hjudges.failed_iff.mpr ⟨f, hrefused⟩, now, hfails⟩

end CertBroker.CertificateRequest
