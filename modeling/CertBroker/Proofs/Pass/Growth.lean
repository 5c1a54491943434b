import CertBroker.Proofs.Cluster.Readback
import CertBroker.Proofs.Pass.Advance
import CertBroker.Proofs.Pass.Outcome

namespace CertBroker

namespace RequestStatus

variable {s t u : RequestStatus} {type reason message : String} {status : ConditionStatus}
  {now : Time}

/-- What is set stays set, and all times can be given. -/
structure Grows (s t : RequestStatus) : Prop where
  certificate : s.certificate.isSome = true → t.certificate.isSome = true
  failureTime : s.failureTime.isSome = true → t.failureTime.isSome = true
  timely : s.Timely → t.Timely

namespace Grows

theorem refl (s : RequestStatus) : s.Grows s := ⟨id, id, id⟩

theorem trans (h : s.Grows t) (h' : t.Grows u) : s.Grows u :=
  ⟨h'.certificate ∘ h.certificate, h'.failureTime ∘ h.failureTime, h'.timely ∘ h.timely⟩

end Grows

theorem timely_set {cs : List Condition} (hnow : now.Proper) (h : ∀ c ∈ cs, c.Timely) :
    ∀ c ∈ Condition.set type status reason message now cs, c.Timely := by
  induction cs with
  | nil =>
    intro c hc
    cases List.mem_singleton.mp hc
    rintro _ ⟨⟩
    exact hnow
  | cons d cs ih =>
    have hd := h d List.mem_cons_self
    have hrest := fun c hc => h c (List.mem_cons_of_mem d hc)
    intro c hc
    unfold Condition.set at hc
    split at hc
    next =>
      rcases List.mem_cons.mp hc with rfl | hc
      · intro t ht
        simp only at ht
        split at ht
        next => exact hd t ht
        next =>
          cases ht
          exact hnow
      · exact hrest c hc
    next =>
      rcases List.mem_cons.mp hc with rfl | hc
      · exact hd
      · exact ih hrest c hc

theorem grows_setCondition (hnow : now.Proper) (s : RequestStatus) :
    s.Grows (s.setCondition type status reason message now) :=
  ⟨id, id, fun h => ⟨timely_set hnow h.conditions, h.failureTime⟩⟩

theorem grows_markFailedOnce (hnow : now.Proper) (s : RequestStatus) :
    s.Grows (s.markFailedOnce now) := by
  refine ⟨id, fun _ => rfl, fun h => ⟨h.conditions, ?_⟩⟩
  rintro _ ⟨⟩
  cases hf : s.failureTime with
  | none => exact hnow
  | some t => exact h.failureTime t hf

theorem grows_setIssued (s : RequestStatus) (certificate : Bytes) (ca : Option Bytes) :
    s.Grows (s.setIssued certificate ca) :=
  ⟨fun _ => rfl, id, fun h => ⟨h.conditions, h.failureTime⟩⟩

theorem grows_applyFailure (hnow : now.Proper) (s : RequestStatus) (f : Failure) :
    s.Grows (s.applyFailure f now) := by
  unfold applyFailure
  split
  next => exact (grows_markFailedOnce hnow s).trans (grows_setCondition hnow _)
  next => exact grows_setCondition hnow s

end RequestStatus

/-- The time that the clock gave. -/
def reading? : Event → Option Time
  | ⟨.now, t⟩ => some t
  | _ => none

/-- All times of the clock can be given. -/
def Timed (events : List Event) : Prop := ∀ t ∈ events.filterMap reading?, t.Proper

theorem Timed.mono {first events : List Event} (h : Timed events) (hsub : first ⊆ events) :
    Timed first := fun t ht => h t (List.filterMap_subset _ hsub ht)

theorem Timed.proper {events : List Event} {now : Time} (h : Timed events)
    (hm : (⟨.now, now⟩ : Event) ∈ events) : now.Proper :=
  h now (List.mem_filterMap.mpr ⟨_, hm, rfl⟩)

namespace CertificateRequest

open RequestStatus (grows_setCondition)

variable {r after : CertificateRequest} {issuer : Issuer} {settings : Settings} {id : String}
  {events : List Event} {now : Time}

/-- The annotations and the status are kept, as far as they are set. -/
structure Grows (r after : CertificateRequest) : Prop where
  annotations : r.metadata.KeepsKeys after.metadata
  status : r.currentStatus.Grows after.currentStatus

namespace Grows

theorem refl (r : CertificateRequest) : r.Grows r := ⟨fun _ h => h, .refl _⟩

theorem trans {r' : CertificateRequest} (h : r.Grows after) (h' : after.Grows r') : r.Grows r' :=
  ⟨fun key hk => h'.annotations key (h.annotations key hk), h.status.trans h'.status⟩

theorem updateStatus {f : RequestStatus → RequestStatus}
    (h : ∀ s : RequestStatus, s.Grows (f s)) :
    r.Grows (r.updateStatus f) := ⟨fun _ hk => hk, h _⟩

end Grows

theorem grows_accept (hnow : now.Proper) (r : CertificateRequest) (c : Pki.IssuedCertificate) :
    r.Grows (r.accept c now) :=
  ⟨Metadata.keepsKeys_recordCertificateId _ _, ((grows_setCondition hnow _).trans
    (RequestStatus.grows_setIssued _ _ _)).trans (grows_setCondition hnow _)⟩

theorem grows_progress (hnow : now.Proper) (r : CertificateRequest) (answer : Pki.Request) :
    r.Grows (r.progress id settings answer now).1 := by
  unfold progress
  split
  next => exact .refl r
  next => exact .refl r
  next => exact .updateStatus fun s => s.grows_setCondition hnow
  next => exact .updateStatus fun s => s.grows_setCondition hnow
  next =>
    split
    next c _ => exact grows_accept hnow r c
    next => exact .refl r

theorem Advances.grows {result : CertificateRequest × Except Failure Action}
    (h : r.Advances issuer settings events result) (ht : Timed events) : r.Grows result.1 := by
  cases h with
  | denied _ now =>
    have hnow := ht.proper List.mem_cons_self
    exact .updateStatus fun s => (s.grows_markFailedOnce hnow).trans (grows_setCondition hnow _)
  | polled _ _ hp =>
    cases hp with
    | unopened => exact .refl r
    | unanswered => exact .refl r
    | answered _ answer now => exact grows_progress (ht.proper (by simp)) r answer
  | submitted _ _ _ hs =>
    cases hs with
    | @accepted _ id _ now =>
      exact ⟨Metadata.keepsKeys_recordRequestId _ _, grows_setCondition (ht.proper (by simp)) _⟩
    | @failed _ f _ now =>
      unfold notSubmitted
      split
      next => exact .updateStatus fun s => s.grows_setCondition (ht.proper (by simp))
      next => exact .refl r
  | waiting => exact .refl r

theorem Reflects.grows {outcome : Except Failure Action}
    (h : r.Reflects outcome events after) (ht : Timed events) : r.Grows after := by
  cases h with
  | kept => exact .refl r
  | failed f now =>
    exact .updateStatus fun s => s.grows_applyFailure (ht.proper List.mem_cons_self) f

end CertificateRequest

end CertBroker
