import CertBroker.Proofs.Cluster.Status
import CertBroker.Proofs.Request.Issued
import CertBroker.Proofs.Request.SingleSubmission

namespace CertBroker

open Stored (Served Applied Answered)

namespace RequestStatus

variable {s t : RequestStatus} {status : ConditionStatus} {type reason message : String}
  {now : Time}

/-- Ready tells that the request was submitted. -/
def tellsSubmission (s : RequestStatus) : Bool :=
  (s.condition ConditionType.ready).any fun c =>
    c.status == .no && c.reasonText == Reason.pending && c.message == some Message.submitted

/-- Ready tells that the certificate was issued. -/
def tellsIssuance (s : RequestStatus) : Bool := s.readyIs .yes Reason.issued

theorem tellsSubmission_setReady :
    (s.setCondition ConditionType.ready status reason message now).tellsSubmission =
      (status == .no && reason == Reason.pending && message == Message.submitted) := by
  obtain ⟨time, hc⟩ := s.condition_setCondition ConditionType.ready status reason message now
  rw [tellsSubmission, hc]
  rfl

theorem tellsSubmission_setCondition_of_ne (h : ConditionType.ready ≠ type) :
    (s.setCondition type status reason message now).tellsSubmission = s.tellsSubmission := by
  rw [tellsSubmission, condition_setCondition_of_ne h, tellsSubmission]

theorem tellsIssuance_setReady :
    (s.setCondition ConditionType.ready status reason message now).tellsIssuance =
      (status == .yes && reason == Reason.issued) := readyIs_setCondition

theorem tellsIssuance_setCondition_of_ne (h : ConditionType.ready ≠ type) :
    (s.setCondition type status reason message now).tellsIssuance = s.tellsIssuance :=
  readyIs_setCondition_of_ne h

theorem any_condition_of_untimed
    (h : s.conditions.map Condition.untimed = t.conditions.map Condition.untimed)
    (type : String) {ask : Condition → Bool} (hask : ∀ c : Condition, ask c.untimed = ask c) :
    (s.condition type).any ask = (t.condition type).any ask := by
  have hfound : (s.condition type).map Condition.untimed =
      (t.condition type).map Condition.untimed := by
    rw [condition, condition, Condition.map_untimed_find, Condition.map_untimed_find, h]
  have hany (o : Option Condition) : o.any ask = (o.map Condition.untimed).any ask := by
    cases o with
    | none => rfl
    | some c => exact (hask c).symm
  rw [hany, hfound, ← hany]

theorem tells_of_untimed
    (h : s.conditions.map Condition.untimed = t.conditions.map Condition.untimed) :
    s.tellsSubmission = t.tellsSubmission ∧ s.tellsIssuance = t.tellsIssuance :=
  ⟨any_condition_of_untimed h _ fun _ => rfl, any_condition_of_untimed h _ fun _ => rfl⟩

end RequestStatus

theorem head?_append_any {first second : String} {ask : Char → Bool}
    (h : first.toList.head?.any ask = true) : (first ++ second).toList.head?.any ask = true := by
  rw [String.toList_append]
  cases hf : first.toList with
  | nil => simp [hf] at h
  | cons c rest => simpa [hf] using h

/-- No failure is worded like a submission that went well. -/
theorem Failure.message_head : ∀ f : Failure, f.message.toList.head?.any (· != 'S') = true
  | .api _ | .cluster _ | .pki _ | .invalidConfig _ | .issuerRef _ | .issuerNotFound _
  | .credentials _ | .invalidCsr _ | .dnsValidation _ | .missingParent _ | .conflict _
  | .watch _ => head?_append_any (by decide)
  | .aggregate source _ => head?_append_any (head?_append_any source.message_head)

theorem Failure.message_ne_submitted (f : Failure) : f.message ≠ Message.submitted := by
  intro heq
  have hhead := f.message_head
  rw [heq] at hhead
  exact absurd hhead (by decide)

namespace CertificateRequest

variable {r current after : CertificateRequest} {issuer : Issuer} {settings : Settings}
  {events : List Event} {id : String} {now : Time}

/-- What Ready tells stands in the ledger. -/
structure Backed (r : CertificateRequest) : Prop where
  submission : r.currentStatus.tellsSubmission = true → r.metadata.requestId?.isSome = true
  issuance : r.currentStatus.tellsIssuance = true →
    r.metadata.requestId?.isSome = true ∧ r.metadata.certificateId?.isSome = true

theorem Backed.of_eq {r' : CertificateRequest} (h : r.Backed)
    (hs : r'.currentStatus.tellsSubmission = r.currentStatus.tellsSubmission)
    (hi : r'.currentStatus.tellsIssuance = r.currentStatus.tellsIssuance)
    (hm : r'.metadata = r.metadata) : r'.Backed := by
  refine ⟨?_, ?_⟩
  · rw [hs, hm]
    exact h.submission
  · rw [hi, hm]
    exact h.issuance

theorem Backed.of_silent (hs : r.currentStatus.tellsSubmission = false)
    (hi : r.currentStatus.tellsIssuance = false) : r.Backed := by
  refine ⟨fun h => ?_, fun h => ?_⟩
  · exact absurd (hs.symm.trans h) Bool.false_ne_true
  · exact absurd (hi.symm.trans h) Bool.false_ne_true

/-- Conditions other than Ready tell nothing of it. -/
theorem Backed.setCondition {type reason message : String} {status : ConditionStatus}
    (h : r.Backed) (hne : ConditionType.ready ≠ type) :
    (r.updateStatus fun s => s.setCondition type status reason message now).Backed :=
  h.of_eq (RequestStatus.tellsSubmission_setCondition_of_ne hne)
    (RequestStatus.tellsIssuance_setCondition_of_ne hne) rfl

end CertificateRequest

/-- The PKI names what it accepts and what it issues. -/
structure Named (events : List Event) : Prop where
  requests : ∀ id ∈ accepted events, id ≠ ""
  certificates : ∀ c ∈ delivered events, c.id ≠ ""

theorem Named.mono {first events : List Event} (h : Named events) (hsub : first ⊆ events) :
    Named first :=
  ⟨fun id hid => h.requests id (List.filterMap_subset _ hsub hid),
    fun c hc => h.certificates c (List.filterMap_subset _ hsub hc)⟩

namespace CertificateRequest

variable {r current after : CertificateRequest} {issuer : Issuer} {settings : Settings}
  {events : List Event}

theorem Becomes.backed (h : r.Becomes events after) (hb : r.Backed) (hn : Named events) :
    after.Backed := by
  cases h with
  | kept => exact hb
  | denied now =>
    exact .of_silent RequestStatus.tellsSubmission_setReady RequestStatus.tellsIssuance_setReady
  | refused now => exact hb.setCondition (by decide)
  | @accepted id c hi hc now =>
    have hrequest : (r.accept c now).metadata.requestId? = some id :=
      (Metadata.requestId?_recordCertificateId _ _).trans hi
    have hcertificate : (r.accept c now).metadata.certificateId? = some c.id := by
      rw [certificateId?_accept, if_neg (hn.certificates c hc)]
    exact ⟨fun _ => by simp [hrequest], fun _ => by simp [hrequest, hcertificate]⟩
  | @submitted id hi hid now =>
    have hrequest : (r.submitted id now).metadata.requestId? = some id :=
      Metadata.requestId?_recordRequestId (hn.requests id hid) hi
    have hissued : (r.submitted id now).currentStatus.tellsIssuance = false :=
      RequestStatus.tellsIssuance_setReady
    refine ⟨fun _ => by simp [hrequest], fun htells => ?_⟩
    exact absurd (hissued.symm.trans htells) Bool.false_ne_true
  | invalid f now => exact hb.setCondition (by decide)

theorem Reflects.backed {outcome : Except Failure Action}
    (h : current.Reflects outcome events after) (hb : current.Backed) : after.Backed := by
  cases h with
  | kept => exact hb
  | failed f now =>
    -- The failure is told by Ready itself, in words that no success uses.
    have htold : (current.currentStatus.applyFailure f now).tellsSubmission = false ∧
        (current.currentStatus.applyFailure f now).tellsIssuance = false := by
      unfold RequestStatus.applyFailure
      split
      next =>
        rw [RequestStatus.tellsSubmission_setReady, RequestStatus.tellsIssuance_setReady]
        exact ⟨rfl, rfl⟩
      next =>
        rw [RequestStatus.tellsSubmission_setReady, RequestStatus.tellsIssuance_setReady]
        exact ⟨by simp [f.message_ne_submitted], rfl⟩
    exact .of_silent htold.1 htold.2

/-- A certificate id is replaced, but never taken away. -/
theorem Becomes.keeps_certificateId (h : r.Becomes events after)
    (hc : r.metadata.certificateId?.isSome = true) :
    after.metadata.certificateId?.isSome = true := by
  cases h with
  | kept => exact hc
  | denied => exact hc
  | refused => exact hc
  | accepted =>
    rw [certificateId?_accept]
    split
    next => exact hc
    next => rfl
  | submitted =>
    exact (congrArg Option.isSome (Metadata.certificateId?_recordRequestId _ _)).trans hc
  | invalid => exact hc

/-- A request that is moved on stays as it was, or has conditions. -/
theorem Becomes.eq_or_conditions (h : r.Becomes events after) :
    after = r ∨ after.currentStatus.conditions ≠ [] := by
  cases h with
  | kept => exact .inl rfl
  | denied => exact .inr RequestStatus.conditions_setCondition_ne_nil
  | refused => exact .inr RequestStatus.conditions_setCondition_ne_nil
  | accepted => exact .inr RequestStatus.conditions_setCondition_ne_nil
  | submitted => exact .inr RequestStatus.conditions_setCondition_ne_nil
  | invalid => exact .inr RequestStatus.conditions_setCondition_ne_nil

theorem Reflects.eq_or_conditions {outcome : Except Failure Action}
    (h : current.Reflects outcome events after) :
    after = current ∨ after.currentStatus.conditions ≠ [] := by
  cases h with
  | kept => exact .inl rfl
  | failed f now =>
    refine .inr ?_
    change (current.currentStatus.applyFailure f now).conditions ≠ []
    unfold RequestStatus.applyFailure
    split
    next => exact RequestStatus.conditions_setCondition_ne_nil
    next => exact RequestStatus.conditions_setCondition_ne_nil

end CertificateRequest

namespace Stored

variable {a : Api.Address} {i j k : Stored} {r current after : CertificateRequest}
  {sent : List Sent}

/-- What Ready tells stands in the ledger. -/
structure Backed (j : Stored) : Prop where
  submission : j.currentStatus.tellsSubmission = true → j.Carries Annotation.requestId
  issuance : j.currentStatus.tellsIssuance = true →
    j.Carries Annotation.requestId ∧ j.Carries Annotation.certificateId

theorem Holds.backed_iff (h : i.Holds a r) : i.Backed ↔ r.Backed := by
  constructor
  · rintro ⟨hs, hi⟩
    rw [h.currentStatus_eq, h.carries_iff] at hs
    rw [h.currentStatus_eq, h.carries_iff, h.carries_iff] at hi
    exact ⟨hs, hi⟩
  · rintro ⟨hs, hi⟩
    refine ⟨?_, ?_⟩
    · rw [h.currentStatus_eq, h.carries_iff]
      exact hs
    · rw [h.currentStatus_eq, h.carries_iff, h.carries_iff]
      exact hi

/-- The ids of the PKI and Ready are the same. -/
structure LeavesAlone (i j : Stored) : Prop where
  requestId : j.annotation? Annotation.requestId = i.annotation? Annotation.requestId
  certificateId : j.annotation? Annotation.certificateId = i.annotation? Annotation.certificateId
  ready : j.currentStatus.condition ConditionType.ready =
    i.currentStatus.condition ConditionType.ready

namespace LeavesAlone

theorem refl (i : Stored) : i.LeavesAlone i := ⟨rfl, rfl, rfl⟩

theorem trans (h : i.LeavesAlone j) (h' : j.LeavesAlone k) : i.LeavesAlone k :=
  ⟨h'.requestId.trans h.requestId, h'.certificateId.trans h.certificateId,
    h'.ready.trans h.ready⟩

theorem carries_requestId (h : i.LeavesAlone j) :
    j.Carries Annotation.requestId ↔ i.Carries Annotation.requestId := by
  rw [Carries, h.requestId, Carries]

theorem carries_certificateId (h : i.LeavesAlone j) :
    j.Carries Annotation.certificateId ↔ i.Carries Annotation.certificateId := by
  rw [Carries, h.certificateId, Carries]

theorem tells (h : i.LeavesAlone j) :
    j.currentStatus.tellsSubmission = i.currentStatus.tellsSubmission ∧
      j.currentStatus.tellsIssuance = i.currentStatus.tellsIssuance := by
  refine ⟨?_, ?_⟩
  · rw [RequestStatus.tellsSubmission, h.ready, RequestStatus.tellsSubmission]
  · rw [RequestStatus.tellsIssuance, RequestStatus.readyIs, h.ready, RequestStatus.tellsIssuance,
      RequestStatus.readyIs]

theorem backed (h : i.LeavesAlone j) (hi : i.Backed) : j.Backed := by
  obtain ⟨hs, hissued⟩ := h.tells
  refine ⟨?_, ?_⟩
  · rw [hs, h.carries_requestId]
    exact hi.submission
  · rw [hissued, h.carries_requestId, h.carries_certificateId]
    exact hi.issuance

/-- A write of the finalizer leaves the ids and Ready alone. -/
theorem of_finalizer {present : Bool} (h : i.Applied (.finalizer r present) j) :
    i.LeavesAlone j := by
  have hnoted : "annotations" ∉ (Write.finalizer r present).noted.map Prod.fst := by
    simp [Write.noted, Store.finalizersChange, Json.member]
  refine ⟨h.annotation?_eq hnoted _, h.annotation?_eq hnoted _, ?_⟩
  rw [currentStatus, h.status?_eq rfl, currentStatus]

end LeavesAlone

theorem leavesAlone_of_served (h : Served a LeavesAlone i sent j)
    (hw : ∀ e ∈ sent, ∃ r present, e.question = .finalizer r present) : i.LeavesAlone j := by
  refine h.invariant (P := i.LeavesAlone) (fun _ _ ho hi => hi.trans ho) ?_ (.refl i)
  intro e he _ j k happ hi
  obtain ⟨r, present, hq⟩ := hw e he
  rw [hq] at happ
  exact hi.trans (.of_finalizer happ)

theorem leavesAlone_of_nothing (h : Served a LeavesAlone i [] j) : i.LeavesAlone j :=
  leavesAlone_of_served h (by simp)

/-- The ids of this metadata stand on the object. -/
structure Notes (j : Stored) (m : Metadata) : Prop where
  requestId : m.requestId?.isSome = true → j.Carries Annotation.requestId
  certificateId : m.certificateId?.isSome = true → j.Carries Annotation.certificateId

theorem Notes.of_leavesAlone {m : Metadata} (hi : i.Notes m) (h : i.LeavesAlone j) : j.Notes m :=
  ⟨fun hm => h.carries_requestId.mpr (hi.requestId hm),
    fun hm => h.carries_certificateId.mpr (hi.certificateId hm)⟩

theorem Applied.notes (h : i.Applied (.annotations after) j) : j.Notes after.metadata :=
  ⟨h.carries_of_annotations, h.carries_of_annotations⟩

/-- What a request was read as stands on the object. -/
theorem Holds.notes (h : i.Holds a r) : i.Notes r.metadata :=
  ⟨(h.carries_iff _).mpr, (h.carries_iff _).mpr⟩

/-- A status that is written is backed by the ids that stand there by then. -/
theorem Applied.backed_of_status {version : Option String}
    (h : i.Applied (.status after version) j) (hi : i.Notes after.metadata) (hb : after.Backed)
    (hne : after.currentStatus.conditions ≠ []) : j.Backed := by
  obtain ⟨s, hs⟩ : ∃ s, after.status = some s := by
    cases hs : after.status with
    | some s => exact ⟨s, rfl⟩
    | none =>
      rw [CertificateRequest.currentStatus, hs] at hne
      exact absurd rfl hne
  have hafter : after.currentStatus = s := by
    rw [CertificateRequest.currentStatus, hs]
    rfl
  rw [hafter] at hne
  have hnoted : "annotations" ∉ (Write.status after version).noted.map Prod.fst := by
    simp [Write.noted]
  have htells : (j.currentStatus.tellsSubmission = true → s.tellsSubmission = true) ∧
      (j.currentStatus.tellsIssuance = true → s.tellsIssuance = true) := by
    rw [currentStatus, h.status?_of_status hs]
    cases hread : Json.optional RequestStatus.ofJson?
        (some (Json.mergePatch (i.status?.getD .null) s.toJson)) with
    | none => exact ⟨fun hno => absurd hno (by decide), fun hno => absurd hno (by decide)⟩
    | some read =>
      obtain ⟨t, rfl, huntimed⟩ := RequestStatus.untimed_of_merged hne hread
      obtain ⟨hsubmission, hissuance⟩ := RequestStatus.tells_of_untimed huntimed
      exact ⟨fun ht => hsubmission.symm.trans ht, fun ht => hissuance.symm.trans ht⟩
  rw [← hafter] at htells
  refine ⟨fun ht => ?_, fun ht => ?_⟩
  · exact (h.carries_iff hnoted _).mpr (hi.requestId (hb.submission (htells.1 ht)))
  · obtain ⟨hrequest, hcertificate⟩ := hb.issuance (htells.2 ht)
    exact ⟨(h.carries_iff hnoted _).mpr (hi.requestId hrequest),
      (h.carries_iff hnoted _).mpr (hi.certificateId hcertificate)⟩

end Stored

variable {a : Api.Address} {i j k : Stored} {r current after : CertificateRequest}
  {settings : Settings} {asked : List Event} {sent first rest : List Sent}
  {stored : Except Failure Unit} {outcome : Except Failure Action}

/-- The status is written any number of times, with the ids there. -/
theorem backed_of_statuses (hs : Served a Stored.LeavesAlone i sent j)
    (hw : ∀ e ∈ sent, ∃ version, e.question = .status after version) (hafter : after.Backed)
    (hne : sent ≠ [] → after.currentStatus.conditions ≠ []) (hi : i.Backed)
    (hnotes : i.Notes after.metadata) : j.Backed := by
  have hkept : j.Backed ∧ j.Notes after.metadata := by
    refine hs.invariant (P := fun i => i.Backed ∧ i.Notes after.metadata) ?_ ?_ ⟨hi, hnotes⟩
    · rintro i j ho ⟨hi, hnotes⟩
      exact ⟨ho.backed hi, hnotes.of_leavesAlone ho⟩
    · rintro e he - i j happ ⟨hi, hnotes⟩
      obtain ⟨version, hq⟩ := hw e he
      rw [hq] at happ
      have hnoted : "annotations" ∉ (Write.status after version).noted.map Prod.fst := by
        simp [Write.noted]
      refine ⟨happ.backed_of_status hnotes hafter (hne (List.ne_nil_of_mem he)), ?_, ?_⟩
      · exact fun hm => (happ.carries_iff hnoted _).mpr (hnotes.requestId hm)
      · exact fun hm => (happ.carries_iff hnoted _).mpr (hnotes.certificateId hm)
  exact hkept.1

/-- The annotations are written, and the ids are there if that was answered well. -/
theorem backed_of_annotations {answer : Except Failure CertificateRequest}
    (hs : Served a Stored.LeavesAlone i (⟨.annotations after, answer⟩ :: sent) j)
    (hid : after.metadata.requestId?.isSome = true)
    (hkeeps : i.Carries Annotation.certificateId → after.metadata.certificateId?.isSome = true)
    (hi : i.Backed) : ∃ k, Served a Stored.LeavesAlone k sent j ∧ k.Backed ∧
      ∀ written, answer = .ok written → (Write.annotations after).address = a →
        k.Notes after.metadata := by
  obtain ⟨m, k, hbefore, hanswered, hrest⟩ := hs.first_answered
  have hm := Stored.leavesAlone_of_nothing hbefore
  have hb := hm.backed hi
  have happlied (happ : Applied m (.annotations after) k) : k.Backed := by
    have hstatus : k.currentStatus = m.currentStatus := by
      rw [Stored.currentStatus, happ.status?_eq rfl, Stored.currentStatus]
    refine ⟨fun _ => happ.notes.requestId hid, fun ht => ⟨happ.notes.requestId hid, ?_⟩⟩
    rw [hstatus] at ht
    exact happ.notes.certificateId (hkeeps (hm.carries_certificateId.mp (hb.issuance ht).2))
  refine ⟨k, hrest, ?_⟩
  cases hanswered with
  | applied _ happ => exact ⟨happlied happ, fun _ _ _ => happ.notes⟩
  | lost _ happ => exact ⟨happlied happ, fun _ hok => absurd hok (by simp)⟩
  | refused => exact ⟨hb, fun _ hok => absurd hok (by simp)⟩
  | elsewhere hne => exact ⟨hb, fun _ _ ha => absurd ha hne⟩

theorem Stored.Notes.of_annotations {m m' : Metadata} (h : i.Notes m)
    (ha : m.annotations = m'.annotations) : i.Notes m' := by
  have hsame (key : String) : m'.entry? key = m.entry? key := by
    rw [Metadata.entry?, Metadata.annotation?, ← ha, Metadata.entry?, Metadata.annotation?]
  refine ⟨fun hm => h.requestId ?_, fun hm => h.certificateId ?_⟩
  · rw [Metadata.requestId?, ← hsame]
    exact hm
  · rw [Metadata.certificateId?, ← hsame]
    exact hm

/-- What storing a request needs, so that no part of it leaves Ready without its ids. -/
structure CertificateRequest.Moves (current after : CertificateRequest) : Prop where
  marks : current.metadata.Marks after.metadata
  keeps : current.metadata.certificateId?.isSome = true →
    after.metadata.certificateId?.isSome = true
  backed : after.Backed
  conditions : current.status = after.status ∨ after.currentStatus.conditions ≠ []

/-- However far storing a request gets, Ready is backed. -/
theorem backed_of_stores (h : Stores current.withStatus after (first ++ rest) stored)
    (hmoves : current.withStatus.Moves after) (hk : k.Holds a current) (hb : k.Backed)
    (hs : Served a Stored.LeavesAlone k first j) : j.Backed := by
  have hconditions (hne : current.withStatus.status ≠ after.status) :
      after.currentStatus.conditions ≠ [] := hmoves.conditions.resolve_left hne
  have haddress : (Write.annotations after).address = a :=
    (hmoves.marks.address _).trans hk.address
  have hkeeps (hc : k.Carries Annotation.certificateId) :
      after.metadata.certificateId?.isSome = true := hmoves.keeps ((hk.carries_iff _).mp hc)
  cases first with
  | nil => exact (Stored.leavesAlone_of_nothing hs).backed hb
  | cons e first =>
    rw [List.cons_append] at h
    generalize hall : e :: (first ++ rest) = all at h
    cases h with
    | nothing => exact absurd hall (by simp)
    | status ha hne =>
      obtain ⟨rfl, hnil⟩ := List.cons.inj hall
      obtain ⟨rfl, rfl⟩ := List.append_eq_nil_iff.mp hnil
      exact backed_of_statuses hs (by simp) hmoves.backed (fun _ => hconditions hne) hb
        (hk.notes.of_annotations ha)
    | failed ha =>
      obtain ⟨rfl, hnil⟩ := List.cons.inj hall
      obtain ⟨rfl, rfl⟩ := List.append_eq_nil_iff.mp hnil
      obtain ⟨m, hm, hbacked, -⟩ :=
        backed_of_annotations hs (hmoves.marks.requestId? ha) hkeeps hb
      exact (Stored.leavesAlone_of_nothing hm).backed hbacked
    | annotations ha =>
      obtain ⟨rfl, hnil⟩ := List.cons.inj hall
      obtain ⟨rfl, rfl⟩ := List.append_eq_nil_iff.mp hnil
      obtain ⟨m, hm, hbacked, -⟩ :=
        backed_of_annotations hs (hmoves.marks.requestId? ha) hkeeps hb
      exact (Stored.leavesAlone_of_nothing hm).backed hbacked
    | both ha hne written =>
      obtain ⟨rfl, hlast⟩ := List.cons.inj hall
      obtain ⟨m, hm, hbacked, hnotes⟩ :=
        backed_of_annotations hs (hmoves.marks.requestId? ha) hkeeps hb
      refine backed_of_statuses hm (fun e he => ?_) hmoves.backed (fun _ => hconditions hne)
        hbacked (hnotes written rfl haddress)
      have hin := List.mem_append_left rest he
      rw [hlast] at hin
      cases List.mem_singleton.mp hin
      exact ⟨_, rfl⟩

theorem CertificateRequest.moves_of_works {events noted : List Event} {issuer : Issuer}
    {moved : CertificateRequest} {result : Except Failure Action} (hb : current.Backed)
    (ha : current.withStatus.Advances issuer settings events (moved, result))
    (hr : moved.Reflects result noted after) (hn : Named events) :
    current.withStatus.Moves after := by
  have hbecomes := ha.becomes
  have hkept : current.withStatus.Backed := hb.of_eq rfl rfl rfl
  have hmetadata := hr.metadata
  refine ⟨?_, fun hc => ?_, hr.backed (hbecomes.backed hkept hn), ?_⟩
  · rw [hmetadata]
    exact ha.marks
  · rw [hmetadata]
    exact hbecomes.keeps_certificateId hc
  · rcases hr.eq_or_conditions with rfl | hne
    · rcases hbecomes.eq_or_conditions with heq | hne
      · exact .inl (congrArg CertificateRequest.status heq).symm
      · exact .inr hne
    · exact .inr hne

theorem backed_of_unstored (hd : Dispatches asked (first ++ rest)) (hu : Unstored asked)
    (hs : Served a Stored.LeavesAlone i first j) (hi : i.Backed) : j.Backed := by
  have hfinalizers (e : Sent) (he : e ∈ first) := hd.finalizers hu e (List.mem_append_left _ he)
  exact (Stored.leavesAlone_of_served hs hfinalizers).backed hi

/-- However far the writes of a pass get, Ready is backed. -/
theorem backed_of_pass (hr : i.Holds a r) (hy : (r.reconcile settings).Yields asked outcome)
    (hn : Named asked) (hd : Dispatches asked (first ++ rest))
    (hs : Served a Stored.LeavesAlone i first j) (hi : i.Backed) : j.Backed := by
  rcases (CertificateRequest.courses_of_yields hy).works_or_unstored.symm with ⟨_, hu⟩ | hw
  · exact backed_of_unstored hd hu hs hi
  cases hw with
  | @stored seeking guarding advancing noted linking issuer current moved after _ _ henters ha
      hreflects answer hl =>
    have hg := henters.guards
    obtain ⟨guarded, later, hall, hguarding, hlater⟩ :=
      (hd.drop_silent henters.seeks.quiet.silent).split
    have hstores :=
      ((hlater.drop_silent ha.silent).drop_silent hreflects.quiet.silent).of_store hl.quiet.silent
    rcases List.append_eq_append_iff.mp hall with ⟨before, rfl, -⟩ | ⟨written, rfl, rfl⟩
    · exact backed_of_unstored hguarding hg.unstored hs hi
    -- The finalizer is settled, so the object reads as what the pass goes on with.
    obtain ⟨m, hfirst, hsecond⟩ := Stored.Served.append_iff.mp hs
    have hguarded : Dispatches ([] ++ (guarding ++ [])) guarded := by simpa using hguarding
    obtain ⟨k, _, last, rfl, -, hnothing, hk, -, hlast, hinv⟩ :=
      guarded_of_served hr (never_nil _) hg hguarded hfirst
    cases hnothing
    have hb : k.Backed := hinv Stored.Backed (fun _ _ ho => ho.backed)
      (fun _ _ happ => (Stored.LeavesAlone.of_finalizer happ).backed) hi
    have hnamed : Named advancing := hn.mono fun e he => by simp [he]
    have hmoves := CertificateRequest.moves_of_works (hk.backed_iff.mp hb) ha hreflects hnamed
    exact backed_of_stores hstores hmoves hk hb (Stored.Served.append_iff.mpr ⟨m, hlast, hsecond⟩)

/-- A pass whose annotations are not answered well does not write the status. -/
theorem unwritten_of_lost (hy : (r.reconcile settings).Yields asked outcome)
    (hd : Dispatches asked sent) (hlost : sent.any Sent.isLost = true) :
    ∀ e ∈ sent, ∀ q version, e.question ≠ .status q version := by
  rcases (CertificateRequest.courses_of_yields hy).works_or_unstored.symm with ⟨_, hu⟩ | hw
  · intro e he q version
    obtain ⟨_, _, hq⟩ := hd.finalizers hu e he
    simp [hq]
  cases hw with
  | stored henters ha hreflects answer hl =>
    obtain ⟨guarded, later, rfl, hguarding, hlater⟩ :=
      (hd.drop_silent henters.seeks.quiet.silent).split
    have hstores :=
      ((hlater.drop_silent ha.silent).drop_silent hreflects.quiet.silent).of_store hl.quiet.silent
    have hguarded := hguarding.finalizers henters.guards.unstored
    have hnotLost : guarded.any Sent.isLost = false := by
      rw [List.any_eq_false]
      rintro ⟨w, answer⟩ he
      obtain ⟨_, _, rfl⟩ := hguarded _ he
      simp [Sent.isLost]
    rw [List.any_append, hnotLost, Bool.false_or] at hlost
    intro e he q version
    rcases List.mem_append.mp he with he | he
    · obtain ⟨_, _, hq⟩ := hguarded e he
      simp [hq]
    cases hstores with
    | nothing => exact absurd he (by simp)
    | status => exact absurd hlost (by simp [Sent.isLost])
    | failed =>
      cases List.mem_singleton.mp he
      simp
    | annotations => exact absurd hlost (by simp [Sent.isLost])
    | both => exact absurd hlost (by simp [Sent.isLost])

variable {visits : List Visit}

/-- What is stored at any time of a run: between passes, or while the last one is writing. -/
inductive Underway (a : Api.Address) (others : Stored → Stored → Prop) (i : Stored) :
    List Visit → Stored → Prop
  | between {visits : List Visit} {k : Stored} (h : Rounds a others i visits k) :
      Underway a others i visits k
  | writing {visits : List Visit} {j k : Stored} {r : CertificateRequest} {settings : Settings}
      {asked : List Event} {first rest : List Sent} {outcome : Except Failure Action}
      (h : Rounds a others i visits j) (hr : j.Holds a r)
      (hy : (r.reconcile settings).Yields asked outcome)
      (hd : Dispatches asked (first ++ rest)) (hs : Served a others j first k) :
      Underway a others i (visits ++ [⟨r, asked, first ++ rest, outcome⟩]) k

theorem backed_of_rounds (h : Rounds a Stored.LeavesAlone i visits k)
    (hn : ∀ v ∈ visits, Named v.asked) (hi : i.Backed) : k.Backed := by
  induction h with
  | rest => exact hi
  | outside ho _ ih => exact ih hn (ho.backed hi)
  | @pass _ _ _ _ _ asked sent _ _ hr hy hd hs _ ih =>
    have hd : Dispatches asked (sent ++ []) := by simpa using hd
    have hj := backed_of_pass hr hy (hn _ List.mem_cons_self) hd hs hi
    exact ih (fun v hv => hn v (List.mem_cons_of_mem _ hv)) hj

theorem unwritten_of_rounds (h : Rounds a Stored.LeavesAlone i visits k) :
    ∀ v ∈ visits, v.sent.any Sent.isLost = true →
      ∀ e ∈ v.sent, ∀ q version, e.question ≠ .status q version := by
  induction h with
  | rest => simp
  | outside _ _ ih => exact ih
  | pass _ hy hd _ _ ih =>
    intro v hv
    rcases List.mem_cons.mp hv with rfl | hv
    · exact unwritten_of_lost hy hd
    · exact ih v hv

/-- A run starts with a request of which this issuer has told nothing yet, and others leave the ids
and Ready alone. Whichever writes fail, Ready is backed by the ids at any time, and a pass whose
annotations were not answered well does not write the status. -/
theorem backed_of_underway (h : Underway a Stored.LeavesAlone i visits k)
    (hn : ∀ v ∈ visits, Named v.asked) (hs : i.currentStatus.tellsSubmission = false)
    (hi : i.currentStatus.tellsIssuance = false) :
    k.Backed ∧ ∀ v ∈ visits, v.sent.any Sent.isLost = true →
      ∀ e ∈ v.sent, ∀ q version, e.question ≠ .status q version := by
  have hb : i.Backed := by
    refine ⟨fun ht => ?_, fun ht => ?_⟩
    · exact absurd (hs.symm.trans ht) Bool.false_ne_true
    · exact absurd (hi.symm.trans ht) Bool.false_ne_true
  cases h with
  | between h => exact ⟨backed_of_rounds h hn hb, unwritten_of_rounds h⟩
  | writing h hr hy hd hs =>
    have hj := backed_of_rounds h (fun v hv => hn v (List.mem_append_left _ hv)) hb
    have hlast := hn _ (List.mem_append_right _ List.mem_cons_self)
    refine ⟨backed_of_pass hr hy hlast hd hs hj, fun v hv => ?_⟩
    rcases List.mem_append.mp hv with hv | hv
    · exact unwritten_of_rounds h v hv
    · cases List.mem_singleton.mp hv
      exact unwritten_of_lost hy hd

/-- The status is refused after the annotations were written, first of a submission and then of an
issued certificate; the last pass makes up for it. -/
def sampleTornPlans : List Rehearsal.Plan :=
  let refusesStatus : Write → Option Failure := fun
    | .status _ _ => some (.cluster "connection failed")
    | _ => none
  let issued : Simulation.World :=
    { Simulation.World.sample with
      pki := ({} : Pki.InMemory).setRequest
        { id := "req-1", status := .completed, certificate := some ⟨"cert-9", "leaf"⟩ } }
  [{ world := .sample, refuses := refusesStatus }, { world := issued, refuses := refusesStatus },
    { world := issued }]

theorem backed_of_torn :
    let run := rehearse Stored.sampleAddress sampleTornPlans Stored.sample
    Underway Stored.sampleAddress Stored.LeavesAlone Stored.sample run.1 run.2 ∧
      (∀ v ∈ run.1, Named v.asked) ∧
      Stored.sample.currentStatus.tellsSubmission = false ∧
      Stored.sample.currentStatus.tellsIssuance = false ∧
      run.1.map (fun v => (v.sent.countP fun e => e.answer.isOk, v.sent.length)) =
        [(2, 3), (1, 2), (1, 1)] ∧
      run.2.currentStatus.tellsIssuance = true ∧ run.2.Backed := by
  have hrun := Underway.between (rounds_rehearse Stored.sampleAddress Stored.LeavesAlone
    sampleTornPlans Stored.sample)
  have hnamed : ∀ v ∈ (rehearse Stored.sampleAddress sampleTornPlans Stored.sample).1,
      Named v.asked := by
    have hids : ∀ v ∈ (rehearse Stored.sampleAddress sampleTornPlans Stored.sample).1,
        (∀ id ∈ accepted v.asked, id ≠ "") ∧ ∀ c ∈ delivered v.asked, c.id ≠ "" := by
      decide +kernel
    exact fun v hv => ⟨(hids v hv).1, (hids v hv).2⟩
  exact ⟨hrun, hnamed, by decide +kernel, by decide +kernel, by decide +kernel, by decide +kernel,
    (backed_of_underway hrun hnamed (by decide +kernel) (by decide +kernel)).1⟩

end CertBroker
