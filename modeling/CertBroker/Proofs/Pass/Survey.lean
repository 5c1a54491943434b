import CertBroker.Proofs.Cluster.Constant
import CertBroker.Proofs.Pass.Course
import CertBroker.Proofs.Pass.Verdict

namespace CertBroker

namespace RequestStatus

variable {s : RequestStatus} {f : Failure} {now later : Time}

theorem isDeniedByApprover_setCondition_of_ne {type reason message : String}
    {status : ConditionStatus} (h : ConditionType.denied ≠ type) :
    (s.setCondition type status reason message now).isDeniedByApprover = s.isDeniedByApprover := by
  rw [isDeniedByApprover, condition_setCondition_of_ne h, isDeniedByApprover]

theorem isInvalid_applyInvalidRequest : (s.applyInvalidRequest f now).isInvalid = true := by
  obtain ⟨time, hmark⟩ :=
    s.condition_setCondition ConditionType.invalidRequest .yes Reason.failed f.message now
  rw [isInvalid, applyInvalidRequest, hmark]
  rfl

theorem terminal?_applyFailure_of_invalid (h : s.isInvalid = true) :
    (s.applyFailure f now).terminal? = some .failed := by
  rw [applyFailure, h, if_pos rfl]
  unfold terminal?
  rw [hasTrue_setCondition, readyIs_setCondition]
  rfl

/-- A failure that is written already stays as it is. -/
theorem applyFailure_of_untimed {t : RequestStatus} (h : s.isInvalid = false)
    (ht : t.conditions.map Condition.untimed =
      (s.applyFailure f now).conditions.map Condition.untimed) : t.applyFailure f later = t := by
  have hvalid : t.isInvalid = (s.applyFailure f now).isInvalid :=
    any_condition_eq (marks_eq_of_untimed ht) _ fun m => m.2.1 == .yes && m.2.2 == Reason.failed
  rw [applyFailure_of_valid h] at ht hvalid
  rw [isInvalid_setCondition_of_ne (by decide), h] at hvalid
  rw [applyFailure_of_valid hvalid, setCondition, Condition.set_of_untimed ht]

theorem terminal?_ne_none_of_denied
    (h : (s.condition ConditionType.denied).any (fun c => c.isTrue && c.reasonText == Reason.pki) =
      true) : s.terminal? ≠ none := by
  intro hnone
  rw [(terminal?_eq_none_iff.mp hnone).2.2.2] at h
  cases h

end RequestStatus

variable {events : List Event} {issuer : Issuer} {settings : Settings}

theorem Issuer.Opens.fixed {opened : Except Failure Pki.Session}
    (h : issuer.Opens settings events opened) : Fixed events := by
  cases h <;> simp [secretQuestion, Ask.varies, Ask.isWrite]

theorem NameCheck.Runs.fixed {server : String} {csr : Bytes} {timeout : Nat}
    {outcome : Except Failure Unit} (h : Runs server csr timeout events outcome) :
    Fixed events := by
  intro e he
  obtain ⟨address, name, hq⟩ := h.question e he
  rw [hq]
  rfl

namespace CertificateRequest

variable {r q : CertificateRequest} {csr : String} {parent : Option Certificate}

theorem Seeks.fixed {found : Except Failure Issuer} (h : r.Seeks events found) :
    Fixed events := by
  cases h <;> simp [issuerQuestion, Ask.varies, Ask.isWrite]

theorem Revokes.fixed {outcome : Except Failure Unit}
    (h : r.Revokes issuer settings events outcome) : Fixed events := by
  cases h with
  | nothing => simp
  | unopened _ ho => exact ho.fixed
  | settled _ ho => simp [ho.fixed, Ask.varies, Ask.isWrite]
  | failed _ ho => simp [ho.fixed, Ask.varies, Ask.isWrite]

theorem Gates.fixed {outcome : Except Failure Unit} (h : Gates issuer settings csr events outcome) :
    Fixed events := by
  cases h with
  | unguarded => simp
  | checked _ hr => exact hr.fixed

theorem Finds.fixed {found : Except Failure (Option Certificate)} (h : r.Finds events found) :
    Fixed events := by
  cases h <;> simp [Ask.varies, Ask.isWrite]

theorem Dresses.fixed {found : Except Failure (Option (Dict String))}
    (h : r.Dresses parent events found) : Fixed events := by
  cases h <;> simp [Ask.varies, Ask.isWrite]

theorem Prepares.fixed {outcome : Except Failure (String × Option Certificate × Pki.Session)}
    (h : r.Prepares issuer settings events outcome) : Fixed events := by
  cases h with
  | undecoded => simp
  | barred _ hg => exact hg.fixed
  | orphaned _ hg hp => simp [hg.fixed, hp.fixed]
  | unopened _ hg hp ho => simp [hg.fixed, hp.fixed, ho.fixed]
  | prepared _ hg hp ho => simp [hg.fixed, hp.fixed, ho.fixed]

theorem Sends.fixed {outcome : Except Failure String}
    (h : r.Sends issuer settings events outcome) : Fixed events := by
  cases h with
  | unprepared hp => exact hp.fixed
  | renewed hp => simp [hp.fixed, Ask.varies, Ask.isWrite]
  | undressed hp _ hd => simp [hp.fixed, hd.fixed]
  | enrolled hp _ hd => simp [hp.fixed, hd.fixed, Ask.varies, Ask.isWrite]

/-- What there is to know about a request before it is moved on. -/
inductive Survey where
  | denied
  | polled (id : String) (answer : Except Failure Pki.Request)
  | sent (answer : Except Failure String)
  | waiting

/-- Finds out about a request. -/
def survey (r : CertificateRequest) (issuer : Issuer) (settings : Settings) : Pass Survey :=
  if r.currentStatus.isDeniedByApprover then return .denied
  else match r.metadata.requestId? with
    | some id => do return .polled id (← (issuer.inquire settings id).result)
    | none =>
      if r.currentStatus.hasTrue ConditionType.approved then do
        return .sent (← (r.send issuer settings).result)
      else return .waiting

/-- What a request becomes, and what comes of the pass. -/
def concluded (r : CertificateRequest) (settings : Settings) :
    Survey → Time → CertificateRequest × Except Failure Action
  | .denied, now => (r.updateStatus fun s => s.applyLocalDenial now, .ok .awaitChange)
  | .polled _ (.error f), _ => (r, .error f)
  | .polled id (.ok answer), now => r.progress id settings answer now
  | .sent (.ok id), now =>
    (r.submitted id now, .ok (.requeue settings.pendingPollInterval))
  | .sent (.error f), now => (r.notSubmitted f now, .error f)
  | .waiting, _ => (r, .ok .awaitChange)

variable {id : String} {result : CertificateRequest × Except Failure Action}

theorem survey_of_poll (hd : r.currentStatus.isDeniedByApprover = false)
    (hi : r.metadata.requestId? = some id)
    (h : Program.Trace (r.poll id issuer settings) events result) :
    ∃ surveying clock w now, events = surveying ++ clock ∧
      Program.Trace (r.survey issuer settings) surveying w ∧
      result = r.concluded settings w now ∧ Unwritten clock := by
  simp only [poll, Program.trace_bind_iff, Attempt.trace_result] at h
  obtain ⟨answer, surveying, clock, rfl, hanswer, h⟩ := h
  have hsurvey : Program.Trace (r.survey issuer settings) surveying (.polled id answer) := by
    simp only [survey, hd, hi, Bool.false_eq_true, if_false, Program.trace_bind_iff]
    exact ⟨answer, surveying, [], by simp, hanswer, .done _⟩
  cases answer with
  | error f =>
    obtain ⟨rfl, rfl⟩ := Program.trace_done_iff.mp h
    exact ⟨surveying, [], _, default, rfl, hsurvey, rfl, by simp⟩
  | ok answer =>
    simp only [Program.trace_bind_iff, Ask.trace_time_iff] at h
    obtain ⟨now, _, _, rfl, rfl, h⟩ := h
    obtain ⟨rfl, rfl⟩ := Program.trace_done_iff.mp h
    exact ⟨surveying, _, _, now, rfl, hsurvey, rfl, by simp [Ask.isWrite]⟩

theorem survey_of_submit (hd : r.currentStatus.isDeniedByApprover = false)
    (hi : r.metadata.requestId? = none)
    (ha : r.currentStatus.hasTrue ConditionType.approved = true)
    (h : Program.Trace (r.submit issuer settings) events result) :
    ∃ surveying clock w now, events = surveying ++ clock ∧
      Program.Trace (r.survey issuer settings) surveying w ∧
      result = r.concluded settings w now ∧ Unwritten clock := by
  simp only [submit, Program.trace_bind_iff, Attempt.trace_result, Ask.trace_time_iff] at h
  obtain ⟨sent, surveying, _, rfl, hsent, now, _, _, rfl, rfl, h⟩ := h
  have hsurvey : Program.Trace (r.survey issuer settings) surveying (.sent sent) := by
    simp only [survey, hd, hi, ha, Bool.false_eq_true, if_false, if_true, Program.trace_bind_iff]
    exact ⟨sent, surveying, [], by simp, hsent, .done _⟩
  refine ⟨surveying, _, .sent sent, now, rfl, hsurvey, ?_⟩
  cases sent with
  | ok id =>
    obtain ⟨rfl, rfl⟩ := Program.trace_done_iff.mp h
    exact ⟨rfl, by simp [Ask.isWrite]⟩
  | error f =>
    obtain ⟨rfl, rfl⟩ := Program.trace_done_iff.mp h
    exact ⟨rfl, by simp [Ask.isWrite]⟩

/-- Moving a request on is finding out about it, and then at most a look at the clock. -/
theorem survey_of_advance (h : Program.Trace (r.advance issuer settings) events result) :
    ∃ surveying clock w now, events = surveying ++ clock ∧
      Program.Trace (r.survey issuer settings) surveying w ∧
      result = r.concluded settings w now ∧ Unwritten clock := by
  unfold advance at h
  simp only at h
  split at h
  next hd =>
    simp only [Program.trace_bind_iff, Ask.trace_time_iff] at h
    obtain ⟨now, _, _, rfl, rfl, h⟩ := h
    obtain ⟨rfl, rfl⟩ := Program.trace_done_iff.mp h
    refine ⟨[], _, .denied, now, rfl, ?_, rfl, by simp [Ask.isWrite]⟩
    rw [survey, if_pos hd]
    exact .done _
  next hd =>
    have hd : r.currentStatus.isDeniedByApprover = false := by simpa using hd
    split at h
    next id hi => exact survey_of_poll hd hi h
    next hi =>
      split at h
      next ha => exact survey_of_submit hd hi ha h
      next ha =>
        obtain ⟨rfl, rfl⟩ := Program.trace_done_iff.mp h
        refine ⟨[], [], .waiting, default, rfl, ?_, rfl, by simp⟩
        simp only [survey, hd, hi, ha, Bool.false_eq_true, if_false]
        exact .done _

/-- What a survey asks: nothing that varies, and nothing of the parent Certificate unless it
submits the request, which is not submitted yet then. -/
theorem questions_of_survey {w : Survey}
    (h : Program.Trace (r.survey issuer settings) events w) :
    Fixed events ∧ (Alone events ∨ r.metadata.requestId? = none) ∧
      ∀ id, w = .sent (.ok id) → accepted events = [id] := by
  unfold survey at h
  split at h
  next =>
    obtain ⟨rfl, rfl⟩ := Program.trace_done_iff.mp h
    exact ⟨by simp, .inl (by simp), by simp⟩
  next =>
    split at h
    next id hi =>
      simp only [Program.trace_bind_iff, Attempt.trace_result, Issuer.inquire,
        Attempt.yields_bind] at h
      obtain ⟨answer, _, _, rfl, hanswer, h⟩ := h
      obtain ⟨rfl, rfl⟩ := Program.trace_done_iff.mp h
      rcases hanswer with ⟨f, ho, rfl⟩ | ⟨session, opening, _, rfl, ho, hcall⟩
      · have ho := Issuer.opens_of_yields ho
        exact ⟨by simp [ho.fixed], .inl (by simp [ho.alone]), by simp⟩
      · have ho := Issuer.opens_of_yields ho
        obtain ⟨reply, rfl, rfl⟩ := Attempt.yields_call.mp hcall
        refine ⟨?_, .inl ?_, by simp⟩
        · simp [ho.fixed, Ask.varies, Ask.isWrite]
        · simp [ho.alone, Ask.concernsParent]
    next hi =>
      split at h
      next =>
        simp only [Program.trace_bind_iff, Attempt.trace_result] at h
        obtain ⟨sent, sending, _, rfl, hsent, h⟩ := h
        obtain ⟨rfl, rfl⟩ := Program.trace_done_iff.mp h
        have hsends := sends_of_yields hsent
        rw [List.append_nil]
        refine ⟨hsends.fixed, .inr hi, ?_⟩
        rintro id hid
        cases hid
        exact hsends.accepted
      next =>
        obtain ⟨rfl, rfl⟩ := Program.trace_done_iff.mp h
        exact ⟨by simp, .inl (by simp), by simp⟩

variable {f : Failure} {now later : Time} {w : Survey} {outcome : Except Failure Action}

/-- The request as it is written. -/
def reflected (r : CertificateRequest) : Except Failure Action → Time → CertificateRequest
  | .ok _, _ => r
  | .error f, now => r.updateStatus fun s => s.applyFailure f now

theorem Reflects.reflected {after : CertificateRequest} (h : r.Reflects outcome events after) :
    ∃ now, after = r.reflected outcome now := by
  cases h with
  | kept => exact ⟨default, rfl⟩
  | failed f now => exact ⟨now, rfl⟩

/-- What a survey makes of a request. -/
def decided (r : CertificateRequest) (settings : Settings) (w : Survey) (now later : Time) :
    CertificateRequest :=
  (r.concluded settings w now).1.reflected (r.concluded settings w now).2 later

/-- A request that is left with its ledger as it was, so that the same survey comes of it again,
and is left alone when it does. -/
structure Stands (r left : CertificateRequest) (settings : Settings) (w : Survey) : Prop where
  metadata : left.metadata = r.metadata
  spec : left.spec = r.spec
  denied : left.currentStatus.isDeniedByApprover = r.currentStatus.isDeniedByApprover
  approved : left.currentStatus.hasTrue ConditionType.approved =
    r.currentStatus.hasTrue ConditionType.approved
  again : ∀ q, left.Returned q → ∀ now later, q.withStatus.decided settings w now later =
    q.withStatus

theorem stands_of_kept
    (h : ∀ (q : CertificateRequest) now later, q.decided settings w now later = q) :
    r.Stands r settings w :=
  ⟨rfl, rfl, rfl, rfl, fun q _ now later => h q.withStatus now later⟩

/-- A failure that leaves a request open is written down once. -/
theorem stands_of_failure
    (h : ∀ (q : CertificateRequest) now later, q.decided settings w now later =
      q.updateStatus fun s => s.applyFailure f later)
    (ho : (r.updateStatus fun s => s.applyFailure f later).currentStatus.terminal? = none) :
    r.Stands (r.updateStatus fun s => s.applyFailure f later) settings w := by
  have hvalid : r.currentStatus.isInvalid = false := by
    cases hi : r.currentStatus.isInvalid with
    | false => rfl
    | true =>
      have hfailed : (r.updateStatus fun s => s.applyFailure f later).currentStatus.terminal? =
          some .failed := RequestStatus.terminal?_applyFailure_of_invalid hi
      rw [hfailed] at ho
      cases ho
  have hleft : (r.updateStatus fun s => s.applyFailure f later).currentStatus =
      r.currentStatus.applyFailure f later := rfl
  refine ⟨rfl, rfl, ?_, ?_, fun q hq again time => ?_⟩
  · rw [hleft, RequestStatus.applyFailure_of_valid hvalid]
    exact RequestStatus.isDeniedByApprover_setCondition_of_ne (by decide)
  · rw [hleft, RequestStatus.applyFailure_of_valid hvalid]
    exact RequestStatus.hasTrue_setCondition_of_ne (by decide)
  · rw [h, updateStatus, withStatus_currentStatus,
      RequestStatus.applyFailure_of_untimed hvalid (hq.conditions.trans (by rw [hleft])),
      withStatus]

theorem terminal?_refuse : (r.refuse now).currentStatus.terminal? ≠ none := by
  apply RequestStatus.terminal?_ne_none_of_denied
  obtain ⟨time, hc⟩ := r.currentStatus.condition_setCondition ConditionType.denied .yes Reason.pki
    Message.pkiDenied now
  have hstatus : (r.refuse now).currentStatus.condition ConditionType.denied = _ := hc
  rw [hstatus]
  rfl

theorem terminal?_accept (c : Pki.IssuedCertificate) :
    (r.accept c now).currentStatus.terminal? ≠ none := by
  have hready : (r.accept c now).currentStatus.hasTrue ConditionType.ready = true :=
    RequestStatus.hasTrue_setCondition
  rw [RequestStatus.terminal?_of_ready hready]
  exact Option.some_ne_none _

/-- Whatever a survey without an accepted submission makes of a request, it is final, or the same
survey leaves the request alone from then on. -/
theorem stands_of_decided (hw : ∀ id, w ≠ .sent (.ok id))
    (ho : (r.decided settings w now later).currentStatus.terminal? = none) :
    r.Stands (r.decided settings w now later) settings w := by
  cases w with
  | denied =>
    have hdenied : (r.decided settings .denied now later).currentStatus.terminal? = some .denied :=
      RequestStatus.terminal?_applyLocalDenial r.currentStatus now
    rw [hdenied] at ho
    cases ho
  | polled id answer =>
    cases answer with
    | error f => exact stands_of_failure (fun _ _ _ => rfl) ho
    | ok answer =>
      obtain ⟨_, _, status, certificate⟩ := answer
      cases status with
      | pending => exact stands_of_kept fun _ _ _ => rfl
      | approved => exact stands_of_kept fun _ _ _ => rfl
      | denied => exact absurd ho terminal?_refuse
      | canceled => exact absurd ho terminal?_refuse
      | completed =>
        cases certificate with
        | some c => exact absurd ho (terminal?_accept c)
        | none => exact stands_of_failure (fun _ _ _ => rfl) ho
  | sent answer =>
    cases answer with
    | ok id => exact absurd rfl (hw id)
    | error f =>
      cases hf : f.isFinal with
      | true =>
        have hfailed : (r.decided settings (.sent (.error f)) now later).currentStatus.terminal? =
            some .failed := by
          simp only [decided, concluded, notSubmitted, hf, if_true]
          exact RequestStatus.terminal?_applyFailure_of_invalid
            RequestStatus.isInvalid_applyInvalidRequest
        rw [hfailed] at ho
        cases ho
      | false =>
        have hkept (q : CertificateRequest) (now later : Time) :
            q.decided settings (.sent (.error f)) now later =
              q.updateStatus fun s => s.applyFailure f later := by
          simp only [decided, concluded, notSubmitted, hf, Bool.false_eq_true, if_false]
          rfl
        rw [hkept] at ho ⊢
        exact stands_of_failure hkept ho
  | waiting => exact stands_of_kept fun _ _ _ => rfl

end CertificateRequest

end CertBroker
