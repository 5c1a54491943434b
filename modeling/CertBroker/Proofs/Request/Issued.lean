import CertBroker.Proofs.Pass.Course
import CertBroker.Proofs.Pass.Verdict
import CertBroker.Proofs.Text.Base64
import CertBroker.Proofs.TrustChain

namespace CertBroker.CertificateRequest

variable {r before after current moved : CertificateRequest} {issuer : Issuer}
  {settings : Settings} {events noted : List Event} {outcome result : Except Failure Action}
  {c : Pki.IssuedCertificate} {now : Time}

theorem certificatePem_accept (r : CertificateRequest) (c : Pki.IssuedCertificate) (now : Time) :
    (r.accept c now).currentStatus.certificatePem =
      .ok (if c.pem = "" then none
        else some (Utf8.encode (TrustChain.buildOrLeaf c.pem).certificate)) := by
  have hstored : (r.accept c now).currentStatus.certificate =
      some (Base64.encode (Utf8.encode (TrustChain.buildOrLeaf c.pem).certificate)) := rfl
  rw [RequestStatus.certificatePem, hstored]
  simp only [String.isEmpty_iff, Base64.encode_eq_empty_iff, Utf8.encode_eq_nil_iff,
    TrustChain.buildOrLeaf_certificate_eq_empty_iff, Base64.decodeText_encode]
  split <;> rfl

theorem certificateId?_accept (r : CertificateRequest) (c : Pki.IssuedCertificate) (now : Time) :
    (r.accept c now).metadata.certificateId? =
      if c.id = "" then r.metadata.certificateId? else some c.id := by
  have hrecorded : (r.accept c now).metadata = (r.metadata.recordCertificateId c.id).1 := rfl
  rw [hrecorded, Metadata.recordCertificateId]
  by_cases hid : c.id = ""
  · simp [hid]
  · simp only [String.isEmpty_iff, hid, if_false]
    exact Metadata.entry?_annotate_self hid _ _

theorem accepts_of_progress {id : String} {answer : Pki.Request}
    (hn : r.currentStatus.hasTrue ConditionType.ready = false)
    (hy : (r.progress id settings answer now).1.currentStatus.hasTrue ConditionType.ready = true) :
    answer.status = .completed ∧ ∃ c, answer.certificate = some c ∧
      (r.progress id settings answer now).1 = r.accept c now := by
  -- The PKI's denial is told by Denied, and leaves Ready as it is.
  have hrefused : (r.refuse now).currentStatus.hasTrue ConditionType.ready = false := by
    have hkept : (r.refuse now).currentStatus.hasTrue ConditionType.ready =
        r.currentStatus.hasTrue ConditionType.ready :=
      RequestStatus.hasTrue_setCondition_of_ne (by decide)
    exact hkept.trans hn
  unfold progress at hy ⊢
  split at hy
  next => simp [hn] at hy
  next => simp [hn] at hy
  next => simp [hrefused] at hy
  next => simp [hrefused] at hy
  next hcompleted =>
    split at hy
    next c hc => exact ⟨hcompleted, c, hc, rfl⟩
    next => simp [hn] at hy

/-- Ready becomes true only by taking over a certificate of the PKI. -/
theorem Advances.accepts {advancing : List Event}
    {result : CertificateRequest × Except Failure Action}
    (ha : current.Advances issuer settings advancing result)
    (hn : current.currentStatus.hasTrue ConditionType.ready = false)
    (hy : result.1.currentStatus.hasTrue ConditionType.ready = true) :
    ∃ session id answer c now, current.metadata.requestId? = some id ∧
      calls advancing = [⟨.call session (.poll id), .ok answer⟩] ∧
      answer.status = .completed ∧ answer.certificate = some c ∧
      result.1 = current.accept c now := by
  cases ha with
  | denied hd now =>
    have hno : (current.updateStatus fun s => s.applyLocalDenial now).currentStatus.hasTrue
      ConditionType.ready = false := RequestStatus.hasTrue_setCondition
    simp [hno] at hy
  | polled hd hi hp =>
    cases hp with
    | unopened => simp [hn] at hy
    | unanswered => simp [hn] at hy
    | @answered opening session ho answer now =>
      obtain ⟨hcompleted, c, hc, hresult⟩ := accepts_of_progress hn hy
      refine ⟨session, _, answer, c, now, hi, ?_, hcompleted, hc, hresult⟩
      simp [ho.quiet.calls, Ask.isCall]
  | submitted hd hi happroved hs =>
    cases hs with
    | @accepted sending id hs now =>
      have hno : (current.submitted id now).currentStatus.hasTrue ConditionType.ready = false :=
        RequestStatus.hasTrue_setCondition
      simp [hno] at hy
    | @failed sending f hs now =>
      have hkept : (current.notSubmitted f now).currentStatus.hasTrue ConditionType.ready =
          current.currentStatus.hasTrue ConditionType.ready := by
        unfold notSubmitted
        split
        next => exact RequestStatus.hasTrue_setCondition_of_ne (by decide)
        next => rfl
      simp [hkept, hn] at hy
  | waiting => simp [hn] at hy

theorem Reflects.kept_of_ready (h : moved.Reflects result noted after)
    (hy : after.currentStatus.hasTrue ConditionType.ready = true) : after = moved := by
  cases h with
  | kept => rfl
  | failed f now =>
    have hno : (moved.updateStatus fun s => s.applyFailure f now).currentStatus.hasTrue
      ConditionType.ready = false := RequestStatus.hasTrue_ready_applyFailure _ f now
    simp [hno] at hy

/-- A pass that makes Ready true has polled the PKI once, and was answered that the request is
completed, with a certificate. The certificate it stores can be read and is not empty exactly if
the answer's is not, and the id of the answer is recorded exactly if there is one. -/
theorem issuance_of_yields {stored : Except Failure Unit}
    (h : (r.reconcile settings).Yields events outcome)
    (hm : (⟨.storeRequest before after, stored⟩ : Event) ∈ events)
    (hy : after.currentStatus.hasTrue ConditionType.ready = true) :
    ∃ session id answer c, before.metadata.requestId? = some id ∧
      calls events = [⟨.call session (.poll id), .ok answer⟩] ∧
      answer.status = .completed ∧ answer.certificate = some c ∧
      (c.pem ≠ "" → ∃ bytes, after.currentStatus.certificatePem = .ok (some bytes) ∧
        bytes ≠ []) ∧
      (c.id ≠ "" → after.metadata.certificateId? = some c.id) ∧
      (c.pem = "" → after.currentStatus.certificatePem = .ok none) ∧
      (c.id = "" → after.metadata.certificateId? = before.metadata.certificateId?) := by
  obtain ⟨seeking, guarding, advancing, noted, linking, issuer, current, moved, result, linked,
    henters, ha, hr, hl, rfl, rfl⟩ := works_of_stored h hm
  cases hr.kept_of_ready hy
  have hn := (RequestStatus.terminal?_eq_none_iff.mp henters.unfinished).1
  obtain ⟨session, id, answer, c, now, hi, hcalls, hcompleted, hc, hresult⟩ := ha.accepts hn hy
  simp only at hresult
  subst hresult
  have hpem := certificatePem_accept current.withStatus c now
  have hid := certificateId?_accept current.withStatus c now
  refine ⟨session, id, answer, c, hi, ?_, hcompleted, hc, fun hne => ?_, fun hne => ?_,
    fun he => ?_, fun he => ?_⟩
  · simp [henters.seeks.quiet.calls, henters.guards.calls, hcalls, hr.quiet.calls, hl.quiet.calls,
      Ask.isCall]
  · rw [if_neg hne] at hpem
    refine ⟨_, hpem, fun hnil => hne ?_⟩
    exact TrustChain.buildOrLeaf_certificate_eq_empty_iff.mp (Utf8.encode_eq_nil_iff.mp hnil)
  · rw [hid, if_neg hne]
  · rw [hpem, if_pos he]
  · rw [hid, if_pos he]

def sampleSubmitted : CertificateRequest where
  metadata := {
    name := some "web", ns := some "shop"
    annotations := some (Dict.empty.insert Annotation.requestId "req-1") }
  spec := { request := "QQ==", issuerRef := ⟨"pki", none, some groupName⟩ }
  status := some { conditions := [⟨ConditionType.approved, .yes, none, none, none⟩] }

/-- A pass over the sample while the PKI answers that it has issued a certificate. -/
def sampleIssuance (c : Pki.IssuedCertificate) :
    Program.Run Ask Ask.Answer (Except Failure Action) Simulation.World :=
  (sampleSubmitted.reconcile {}).result.run Simulation.World.answer
    { Simulation.World.sample with
      pki := ({} : Pki.InMemory).setRequest
        { id := "req-1", status := .completed, certificate := some c } }

/-- Whether an event stores a request with Ready true. -/
def storesReady : Event → Bool
  | ⟨.storeRequest _ after, _⟩ => after.currentStatus.hasTrue ConditionType.ready
  | _ => false

theorem exists_of_storesReady {e : Event} (h : storesReady e = true) :
    ∃ before after stored, e = ⟨.storeRequest before after, stored⟩ ∧
      after.currentStatus.hasTrue ConditionType.ready = true := by
  unfold storesReady at h
  split at h
  next before after stored => exact ⟨before, after, stored, rfl, h⟩
  next => cases h

theorem issuance_of_leaf :
    ∃ before after, ∃ stored : Except Failure Unit,
      (⟨.storeRequest before after, stored⟩ : Event) ∈ (sampleIssuance ⟨"cert-9", "leaf"⟩).events ∧
      after.currentStatus.hasTrue ConditionType.ready = true ∧
      after.metadata.certificateId? = some "cert-9" ∧
      ∃ bytes, after.currentStatus.certificatePem = .ok (some bytes) ∧ bytes ≠ [] := by
  have hstored : (sampleIssuance ⟨"cert-9", "leaf"⟩).events.any storesReady = true := by
    decide +kernel
  obtain ⟨e, he, hready⟩ := List.any_eq_true.mp hstored
  obtain ⟨before, after, stored, rfl, hy⟩ := exists_of_storesReady hready
  obtain ⟨session, id, answer, c, hi, hcalls, hcompleted, hc, hpem, hid, -⟩ :=
    issuance_of_yields (Attempt.run_yields _ _ _) he hy
  have hpolled : (calls (sampleIssuance ⟨"cert-9", "leaf"⟩).events).filterMap
      polledCertificate? = [⟨"cert-9", "leaf"⟩] := by decide +kernel
  have hanswer : (calls (sampleIssuance ⟨"cert-9", "leaf"⟩).events).filterMap
      polledCertificate? = [c] := by
    rw [sampleIssuance, hcalls]
    simp [polledCertificate?, hc]
  obtain rfl : c = ⟨"cert-9", "leaf"⟩ := List.singleton_inj.mp (hanswer.symm.trans hpolled)
  exact ⟨before, after, stored, he, hy, hid (by decide), hpem (by decide)⟩

/-- Ready becomes true for an answer whose certificate is empty, and for one without an id. -/
theorem issuance_of_empty :
    ((sampleIssuance ⟨"cert-9", ""⟩).state.requests.get? "shop/web").map (fun r =>
        (r.currentStatus.hasTrue ConditionType.ready, r.currentStatus.certificatePem.toOption)) =
      some (true, some none) ∧
    ((sampleIssuance ⟨"", "leaf"⟩).state.requests.get? "shop/web").map (fun r =>
        (r.currentStatus.hasTrue ConditionType.ready, r.metadata.certificateId?)) =
      some (true, none) :=
  ⟨by decide +kernel, by decide +kernel⟩

end CertBroker.CertificateRequest
