import CertBroker.Pass.Verdict

namespace CertBroker.RequestStatus

variable {s : RequestStatus} {type other reason message : String} {status : ConditionStatus}
  {f : Failure} {now : Time}

theorem condition_setCondition (s : RequestStatus) (type : String) (status : ConditionStatus)
    (reason message : String) (now : Time) :
    ∃ time, (s.setCondition type status reason message now).condition type =
      some ⟨type, status, some reason, some message, time⟩ :=
  ⟨_, Condition.find_set_same ..⟩

theorem conditions_setCondition_ne_nil :
    (s.setCondition type status reason message now).conditions ≠ [] := by
  intro hnil
  obtain ⟨time, hc⟩ := s.condition_setCondition type status reason message now
  rw [condition, hnil] at hc
  cases hc

theorem condition_setCondition_of_ne (h : other ≠ type) :
    (s.setCondition type status reason message now).condition other = s.condition other :=
  Condition.find_set_of_ne h ..

theorem hasTrue_setCondition :
    (s.setCondition type status reason message now).hasTrue type = (status == .yes) := by
  obtain ⟨time, hc⟩ := s.condition_setCondition type status reason message now
  rw [hasTrue, hc]
  rfl

theorem hasTrue_setCondition_of_ne (h : other ≠ type) :
    (s.setCondition type status reason message now).hasTrue other = s.hasTrue other := by
  rw [hasTrue, condition_setCondition_of_ne h, hasTrue]

theorem hasTrue_ready_applyFailure (s : RequestStatus) (f : Failure) (now : Time) :
    (s.applyFailure f now).hasTrue ConditionType.ready = false := by
  unfold applyFailure
  split
  next =>
    rw [hasTrue_setCondition]
    rfl
  next =>
    rw [hasTrue_setCondition]
    rfl

theorem isInvalid_setCondition_of_ne (h : ConditionType.invalidRequest ≠ type) :
    (s.setCondition type status reason message now).isInvalid = s.isInvalid := by
  rw [isInvalid, condition_setCondition_of_ne h, isInvalid]

theorem terminal?_eq_none_iff : s.terminal? = none ↔
    s.hasTrue ConditionType.ready = false ∧ s.readyIs .no Reason.failed = false ∧
      s.readyIs .no Reason.denied = false ∧ (s.condition ConditionType.denied).any
        (fun c => c.isTrue && c.reasonText == Reason.pki) = false := by
  unfold terminal?
  split
  next hready => simp [hready]
  next hready =>
    split
    next hfailed => simp [hfailed]
    next hfailed =>
      split
      next hdenied => simp [hdenied]
      next hdenied =>
        split
        next hpki => simp [hpki]
        next hpki => simp only [hready, hfailed, hdenied, hpki, and_self]

theorem terminal?_of_ready (h : s.hasTrue ConditionType.ready = true) :
    s.terminal? = some .issued := by rw [terminal?, if_pos h]

theorem readyIs_setCondition {status' : ConditionStatus} {reason' : String} :
    (s.setCondition ConditionType.ready status reason message now).readyIs status' reason' =
      (status == status' && reason == reason') := by
  obtain ⟨time, hc⟩ := s.condition_setCondition ConditionType.ready status reason message now
  rw [readyIs, hc]
  rfl

theorem readyIs_setCondition_of_ne (h : ConditionType.ready ≠ type) {status' : ConditionStatus}
    {reason' : String} :
    (s.setCondition type status reason message now).readyIs status' reason' =
      s.readyIs status' reason' := by
  rw [readyIs, condition_setCondition_of_ne h, readyIs]

/-- A denial that is recorded is final. -/
theorem terminal?_applyLocalDenial (s : RequestStatus) (now : Time) :
    (s.applyLocalDenial now).terminal? = some .denied := by
  unfold terminal? applyLocalDenial
  rw [hasTrue_setCondition, readyIs_setCondition, readyIs_setCondition]
  rfl

/-- A failure for now leaves a request open: Ready tells it, and nothing is said to be final. -/
structure Awaits (s t : RequestStatus) (f : Failure) : Prop where
  ready : ∃ time, t.condition ConditionType.ready =
    some ⟨ConditionType.ready, .no, some Reason.pending, some f.message, time⟩
  unfinished : t.terminal? = none
  invalidRequest : t.condition ConditionType.invalidRequest =
    s.condition ConditionType.invalidRequest
  failureTime : t.failureTime = s.failureTime

/-- A failure for good ends a request, at the given time unless it had failed before. -/
structure Fails (s t : RequestStatus) (f : Failure) (now : Time) : Prop where
  ready : ∃ time, t.condition ConditionType.ready =
    some ⟨ConditionType.ready, .no, some Reason.failed, some Message.invalidRequest, time⟩
  finished : t.terminal? = some .failed
  invalidRequest : ∃ time, t.condition ConditionType.invalidRequest =
    some ⟨ConditionType.invalidRequest, .yes, some Reason.failed, some f.message, time⟩
  failureTime : t.failureTime = some (s.failureTime.getD now)

theorem applyFailure_of_valid (h : s.isInvalid = false) (f : Failure) (now : Time) :
    s.applyFailure f now =
      s.setCondition ConditionType.ready .no Reason.pending f.message now := by
  rw [applyFailure, h]
  rfl

theorem awaits_applyFailure (hi : s.isInvalid = false) (ht : s.terminal? = none) (f : Failure)
    (now : Time) : s.Awaits (s.applyFailure f now) f := by
  rw [applyFailure_of_valid hi]
  refine ⟨s.condition_setCondition .., ?_, condition_setCondition_of_ne (by decide), rfl⟩
  obtain ⟨-, -, -, hdenied⟩ := terminal?_eq_none_iff.mp ht
  refine terminal?_eq_none_iff.mpr ⟨?_, ?_, ?_, ?_⟩
  · rw [hasTrue_setCondition]
    rfl
  · rw [readyIs_setCondition]
    decide
  · rw [readyIs_setCondition]
    decide
  · rw [condition_setCondition_of_ne (by decide)]
    exact hdenied

theorem fails_applyFailure (s : RequestStatus) (f : Failure) (noted now : Time) :
    s.Fails ((s.applyInvalidRequest f noted).applyFailure f now) f now := by
  obtain ⟨time, hmark⟩ :=
    s.condition_setCondition ConditionType.invalidRequest .yes Reason.failed f.message noted
  have hinvalid : (s.applyInvalidRequest f noted).isInvalid = true := by
    rw [isInvalid, applyInvalidRequest, hmark]
    rfl
  rw [applyFailure, hinvalid, if_pos rfl]
  refine ⟨condition_setCondition .., ?_, ⟨time, ?_⟩, rfl⟩
  · unfold terminal?
    rw [hasTrue_setCondition, readyIs_setCondition]
    rfl
  · exact (condition_setCondition_of_ne (by decide)).trans hmark

end CertBroker.RequestStatus
