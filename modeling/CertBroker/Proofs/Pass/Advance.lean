import CertBroker.Pass.Request
import CertBroker.Proofs.Cluster.Ledger
import CertBroker.Proofs.Pass.Submission

namespace CertBroker.CertificateRequest

variable {r after : CertificateRequest} {issuer : Issuer} {settings : Settings} {id : String}
  {events : List Event} {outcome : Except Failure Action}

/-- What can come of asking the PKI about a submitted request. -/
inductive Polls (r : CertificateRequest) (id : String) (issuer : Issuer) (settings : Settings) :
    List Event → CertificateRequest × Except Failure Action → Prop
  | unopened {opening : List Event} {f : Failure} (h : issuer.Opens settings opening (.error f)) :
      Polls r id issuer settings opening (r, .error f)
  | unanswered {opening : List Event} {session : Pki.Session}
      (h : issuer.Opens settings opening (.ok session)) (e : PkiError) :
      Polls r id issuer settings (opening ++ [⟨.call session (.poll id), .error e⟩])
        (r, .error (.pki e))
  | answered {opening : List Event} {session : Pki.Session}
      (h : issuer.Opens settings opening (.ok session)) (answer : Pki.Request) (now : Time) :
      Polls r id issuer settings (opening ++ [⟨.call session (.poll id), .ok answer⟩, ⟨.now, now⟩])
        (r.progress id settings answer now)

theorem Polls.silent {result : CertificateRequest × Except Failure Action}
    (h : r.Polls id issuer settings events result) : Silent events := by
  cases h with
  | unopened ho => exact ho.quiet.silent
  | unanswered ho => simp [ho.quiet.silent, Ask.changesRequest]
  | answered ho => simp [ho.quiet.silent, Ask.changesRequest]

theorem Polls.unwritten {result : CertificateRequest × Except Failure Action}
    (h : r.Polls id issuer settings events result) : Unwritten events := by
  cases h with
  | unopened ho => exact ho.unwritten
  | unanswered ho => simp [ho.unwritten, Ask.isWrite]
  | answered ho => simp [ho.unwritten, Ask.isWrite]

theorem progress_marks (h : r.metadata.requestId?.isSome = true) (answer : Pki.Request)
    (now : Time) : r.metadata.Marks (r.progress id settings answer now).1.metadata := by
  unfold progress
  split
  next => exact .inl rfl
  next => exact .inl rfl
  next => exact .inl rfl
  next => exact .inl rfl
  next =>
    split
    next c _ => exact Metadata.marks_recordCertificateId h c.id
    next => exact .inl rfl

theorem Polls.marks {result : CertificateRequest × Except Failure Action}
    (h : r.Polls id issuer settings events result) (hi : r.metadata.requestId? = some id) :
    r.metadata.Marks result.1.metadata := by
  cases h with
  | unopened => exact .inl rfl
  | unanswered => exact .inl rfl
  | answered _ answer now => exact progress_marks (by simp [hi]) answer now

theorem Polls.unsubmitted {result : CertificateRequest × Except Failure Action}
    (h : r.Polls id issuer settings events result) : Unsubmitted events := by
  cases h with
  | unopened ho => exact ho.quiet.unsubmitted
  | unanswered ho => simp [ho.quiet.unsubmitted, Ask.isSubmission]
  | answered ho => simp [ho.quiet.unsubmitted, Ask.isSubmission]

theorem polls_of_trace {result : CertificateRequest × Except Failure Action}
    (h : Program.Trace (r.poll id issuer settings) events result) :
    r.Polls id issuer settings events result := by
  simp only [poll, Program.trace_bind_iff, Attempt.trace_result, Issuer.inquire,
    Attempt.yields_bind] at h
  obtain ⟨asked, _, _, rfl, hi, h⟩ := h
  rcases hi with ⟨f, ho, rfl⟩ | ⟨session, opening, _, rfl, ho, hc⟩
  · obtain ⟨rfl, rfl⟩ := Program.trace_done_iff.mp h
    rw [List.append_nil]
    exact .unopened (Issuer.opens_of_yields ho)
  have ho := Issuer.opens_of_yields ho
  obtain ⟨answer, rfl, rfl⟩ := Attempt.yields_call.mp hc
  cases answer with
  | error e =>
    obtain ⟨rfl, rfl⟩ := Program.trace_done_iff.mp h
    rw [List.append_nil]
    exact .unanswered ho e
  | ok answer =>
    simp only [mapError_ok, Program.trace_bind_iff, Ask.trace_time_iff] at h
    obtain ⟨now, _, _, rfl, rfl, h⟩ := h
    obtain ⟨rfl, rfl⟩ := Program.trace_done_iff.mp h
    rw [List.append_assoc]
    exact .answered ho answer now

/-- What can come of submitting a request. -/
inductive Submits (r : CertificateRequest) (issuer : Issuer) (settings : Settings) :
    List Event → CertificateRequest × Except Failure Action → Prop
  | accepted {sending : List Event} {id : String} (h : r.Sends issuer settings sending (.ok id))
      (now : Time) : Submits r issuer settings (sending ++ [⟨.now, now⟩])
        (r.submitted id now, .ok (.requeue settings.pendingPollInterval))
  | failed {sending : List Event} {f : Failure}
      (h : r.Sends issuer settings sending (.error f)) (now : Time) :
      Submits r issuer settings (sending ++ [⟨.now, now⟩]) (r.notSubmitted f now, .error f)

theorem Submits.silent {result : CertificateRequest × Except Failure Action}
    (h : r.Submits issuer settings events result) : Silent events := by
  cases h with
  | accepted hs => simp [hs.silent, Ask.changesRequest]
  | failed hs => simp [hs.silent, Ask.changesRequest]

theorem Submits.unwritten {result : CertificateRequest × Except Failure Action}
    (h : r.Submits issuer settings events result) : Unwritten events := by
  cases h with
  | accepted hs => simp [hs.unwritten, Ask.isWrite]
  | failed hs => simp [hs.unwritten, Ask.isWrite]

theorem Submits.marks {result : CertificateRequest × Except Failure Action}
    (h : r.Submits issuer settings events result) : r.metadata.Marks result.1.metadata := by
  cases h with
  | accepted => exact Metadata.marks_recordRequestId _ _
  | @failed _ f _ now =>
    unfold notSubmitted
    split
    next => exact .inl rfl
    next => exact .inl rfl

theorem submits_of_trace {result : CertificateRequest × Except Failure Action}
    (h : Program.Trace (r.submit issuer settings) events result) :
    r.Submits issuer settings events result := by
  simp only [submit, Program.trace_bind_iff, Attempt.trace_result, Ask.trace_time_iff] at h
  obtain ⟨sent, sending, _, rfl, hs, now, _, _, rfl, rfl, h⟩ := h
  have hs := sends_of_yields hs
  cases sent with
  | ok id =>
    obtain ⟨rfl, rfl⟩ := Program.trace_done_iff.mp h
    exact .accepted hs now
  | error f =>
    obtain ⟨rfl, rfl⟩ := Program.trace_done_iff.mp h
    exact .failed hs now

/-- The four ways to move a request on. -/
inductive Advances (r : CertificateRequest) (issuer : Issuer) (settings : Settings) :
    List Event → CertificateRequest × Except Failure Action → Prop
  | denied (hd : r.currentStatus.isDeniedByApprover = true) (now : Time) :
      Advances r issuer settings [⟨.now, now⟩]
        (r.updateStatus fun s => s.applyLocalDenial now, .ok .awaitChange)
  | polled {id : String} {events : List Event}
      {result : CertificateRequest × Except Failure Action}
      (hd : r.currentStatus.isDeniedByApprover = false) (hi : r.metadata.requestId? = some id)
      (hp : r.Polls id issuer settings events result) : Advances r issuer settings events result
  | submitted {events : List Event} {result : CertificateRequest × Except Failure Action}
      (hd : r.currentStatus.isDeniedByApprover = false) (hi : r.metadata.requestId? = none)
      (ha : r.currentStatus.hasTrue ConditionType.approved = true)
      (hs : r.Submits issuer settings events result) : Advances r issuer settings events result
  | waiting (hd : r.currentStatus.isDeniedByApprover = false)
      (hi : r.metadata.requestId? = none)
      (ha : r.currentStatus.hasTrue ConditionType.approved = false) :
      Advances r issuer settings [] (r, .ok .awaitChange)

theorem Advances.silent {result : CertificateRequest × Except Failure Action}
    (h : r.Advances issuer settings events result) : Silent events := by
  cases h with
  | denied => simp [Ask.changesRequest]
  | polled _ _ hp => exact hp.silent
  | submitted _ _ _ hs => exact hs.silent
  | waiting => simp

theorem Advances.unwritten {result : CertificateRequest × Except Failure Action}
    (h : r.Advances issuer settings events result) : Unwritten events := by
  cases h with
  | denied => simp [Ask.isWrite]
  | polled _ _ hp => exact hp.unwritten
  | submitted _ _ _ hs => exact hs.unwritten
  | waiting => simp

theorem Advances.marks {result : CertificateRequest × Except Failure Action}
    (h : r.Advances issuer settings events result) : r.metadata.Marks result.1.metadata := by
  cases h with
  | denied => exact .inl rfl
  | polled _ hi hp => exact hp.marks hi
  | submitted _ _ _ hs => exact hs.marks
  | waiting => exact .inl rfl

/-- At most one submission is accepted, of a request without an id, and its id is recorded. -/
theorem Advances.accepted {result : CertificateRequest × Except Failure Action}
    (h : r.Advances issuer settings events result) : accepted events = [] ∨
      ∃ id, accepted events = [id] ∧ r.metadata.requestId? = none ∧
        result.1.metadata = (r.metadata.recordRequestId id).1 := by
  cases h with
  | denied => exact .inl rfl
  | polled _ _ hp => exact .inl (accepted_of_unsubmitted hp.unsubmitted)
  | submitted _ hi _ hs =>
    cases hs with
    | accepted hs =>
      refine .inr ⟨_, ?_, hi, rfl⟩
      rw [accepted_append, hs.accepted]
      rfl
    | failed hs =>
      refine .inl ?_
      rw [accepted_append, hs.accepted]
      rfl
  | waiting => exact .inl rfl

theorem advances_of_trace {result : CertificateRequest × Except Failure Action}
    (h : Program.Trace (r.advance issuer settings) events result) :
    r.Advances issuer settings events result := by
  unfold advance at h
  simp only at h
  split at h
  next hd =>
    simp only [Program.trace_bind_iff, Ask.trace_time_iff] at h
    obtain ⟨now, _, _, rfl, rfl, h⟩ := h
    obtain ⟨rfl, rfl⟩ := Program.trace_done_iff.mp h
    exact .denied hd now
  next hd =>
    have hd : r.currentStatus.isDeniedByApprover = false := by simpa using hd
    split at h
    next id hi => exact .polled hd hi (polls_of_trace h)
    next hi =>
      split at h
      next ha => exact .submitted hd hi ha (submits_of_trace h)
      next ha =>
        obtain ⟨rfl, rfl⟩ := Program.trace_done_iff.mp h
        exact .waiting hd hi (by simpa using ha)

/-- What a request can become by moving it on, for the events of doing so. -/
inductive Becomes (r : CertificateRequest) (events : List Event) : CertificateRequest → Prop
  | kept : Becomes r events r
  | denied (now : Time) : Becomes r events (r.updateStatus fun s => s.applyLocalDenial now)
  | refused (now : Time) : Becomes r events (r.refuse now)
  | accepted {id : String} {c : Pki.IssuedCertificate} (hi : r.metadata.requestId? = some id)
      (hc : c ∈ delivered events) (now : Time) : Becomes r events (r.accept c now)
  | submitted {id : String} (hi : r.metadata.requestId? = none)
      (hid : id ∈ CertBroker.accepted events) (now : Time) : Becomes r events (r.submitted id now)
  | invalid (f : Failure) (now : Time) :
      Becomes r events (r.updateStatus fun s => s.applyInvalidRequest f now)

theorem becomes_progress {answer : Pki.Request} {now : Time} (hi : r.metadata.requestId? = some id)
    (hc : ∀ c, answer.certificate = some c → c ∈ delivered events) :
    r.Becomes events (r.progress id settings answer now).1 := by
  unfold progress
  split
  next => exact .kept
  next => exact .kept
  next => exact .refused now
  next => exact .refused now
  next =>
    split
    next c hanswer => exact .accepted hi (hc c hanswer) now
    next => exact .kept

theorem Advances.becomes {result : CertificateRequest × Except Failure Action}
    (h : r.Advances issuer settings events result) : r.Becomes events result.1 := by
  cases h with
  | denied _ now => exact .denied now
  | polled _ hi hp =>
    cases hp with
    | unopened => exact .kept
    | unanswered => exact .kept
    | @answered opening session _ answer now =>
      refine becomes_progress hi fun c hc => List.mem_filterMap.mpr ?_
      exact ⟨⟨.call session (.poll _), .ok answer⟩, List.mem_append_right _ List.mem_cons_self, hc⟩
  | submitted _ hi _ hs =>
    cases hs with
    | @accepted sending id hs now =>
      refine .submitted hi ?_ now
      rw [accepted_append, hs.accepted]
      exact List.mem_append_left _ (List.mem_singleton.mpr rfl)
    | @failed _ f _ now =>
      unfold notSubmitted
      split
      next => exact .invalid f now
      next => exact .kept
  | waiting => exact .kept

end CertBroker.CertificateRequest
