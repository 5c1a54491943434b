import CertBroker.Proofs.Cluster.Status
import CertBroker.Proofs.Pass.Verdict

namespace CertBroker

/-- What is said of a type of condition. -/
structure Notice where
  type : String
  status : ConditionStatus
  reason : String
  message : String
deriving DecidableEq

namespace Notice

variable {n : Notice} {now : Time} {cs ds : List Condition}

/-- The condition that says so, in this status since the given time. -/
def condition (n : Notice) (since : Option Time) : Condition :=
  ⟨n.type, n.status, some n.reason, some n.message, since⟩

/-- How a notice is put into a list of conditions: in place of the first condition of its type,
whose time is kept unless the status changes, or at the end. -/
inductive Put (n : Notice) (now : Time) (cs ds : List Condition) : Prop
  | renewed {front back : List Condition} {c : Condition} (before : cs = front ++ c :: back)
      (after : ds = front ++
        n.condition (if c.status = n.status then c.lastTransitionTime else some now) :: back)
      (first : ∀ d ∈ front, d.type ≠ n.type) (type_eq : c.type = n.type)
  | added (after : ds = cs ++ [n.condition (some now)]) (absent : ∀ d ∈ cs, d.type ≠ n.type)

theorem put_set (n : Notice) (now : Time) (cs : List Condition) :
    n.Put now cs (Condition.set n.type n.status n.reason n.message now cs) := by
  induction cs with
  | nil => exact .added rfl (by simp)
  | cons c cs ih =>
    unfold Condition.set
    split
    next htype =>
      exact .renewed (List.nil_append _).symm (by simp [condition, htype])
        (List.forall_mem_nil _) htype
    next htype =>
      cases ih with
      | renewed before after first type_eq =>
        exact .renewed (congrArg (c :: ·) before) (congrArg (c :: ·) after)
          (List.forall_mem_cons.mpr ⟨htype, first⟩) type_eq
      | added after absent =>
        exact .added (congrArg (c :: ·) after) (List.forall_mem_cons.mpr ⟨htype, absent⟩)

theorem Put.types (h : n.Put now cs ds) : cs.map (·.type) <+: ds.map (·.type) := by
  cases h with
  | renewed before after first type_eq =>
    subst before after
    simp [condition, type_eq]
  | added after absent =>
    subst after
    simp

theorem Put.distinct (h : n.Put now cs ds) (hcs : (cs.map (·.type)).Nodup) :
    (ds.map (·.type)).Nodup := by
  cases h with
  | renewed before after first type_eq =>
    subst before after
    simpa [condition, type_eq] using hcs
  | added after absent =>
    subst after
    simpa [condition, List.nodup_append] using ⟨hcs, fun d hd => absent d hd⟩

end Notice

namespace RequestStatus

variable {s t u : RequestStatus} {now later : Time}

/-- A change that is made to a status. -/
inductive Change where
  | setCondition (n : Notice)
  | markFailedOnce
  | setIssued (certificate : Bytes) (ca : Option Bytes)
  | applyLocalDenial
  | applyInvalidRequest (f : Failure)
  | applyFailure (f : Failure)

def change (s : RequestStatus) (now : Time) : Change → RequestStatus
  | .setCondition n => s.setCondition n.type n.status n.reason n.message now
  | .markFailedOnce => s.markFailedOnce now
  | .setIssued certificate ca => s.setIssued certificate ca
  | .applyLocalDenial => s.applyLocalDenial now
  | .applyInvalidRequest f => s.applyInvalidRequest f now
  | .applyFailure f => s.applyFailure f now

/-- Makes changes, each at a time of its own. -/
def changeAll (s : RequestStatus) (changes : List (Change × Time)) : RequestStatus :=
  changes.foldl (fun s c => s.change c.2 c.1) s

/-- What a change says of a condition, if it sets one. -/
def notice? (s : RequestStatus) : Change → Option Notice
  | .setCondition n => some n
  | .markFailedOnce => none
  | .setIssued _ _ => none
  | .applyLocalDenial =>
    some ⟨ConditionType.ready, .no, Reason.denied, Message.locallyDenied⟩
  | .applyInvalidRequest f => some ⟨ConditionType.invalidRequest, .yes, Reason.failed, f.message⟩
  | .applyFailure f => some <|
    if s.isInvalid then ⟨ConditionType.ready, .no, Reason.failed, Message.invalidRequest⟩
    else ⟨ConditionType.ready, .no, Reason.pending, f.message⟩

/-- Whether a change stores a certificate. -/
def Change.issues : Change → Bool
  | .setIssued _ _ => true
  | _ => false

def types (s : RequestStatus) : List String := s.conditions.map (·.type)

/-- What a change makes of a status. -/
structure Amends (s : RequestStatus) (c : Change) (now : Time) (t : RequestStatus) : Prop where
  conditions : match s.notice? c with
    | some n => n.Put now s.conditions t.conditions
    | none => t.conditions = s.conditions
  failureTime : t.failureTime = s.failureTime ∨ s.failureTime = none ∧ t.failureTime = some now
  unissued : c.issues = false → t.certificate = s.certificate ∧ t.ca = s.ca
  again : ∀ later, t.change later c = t

theorem failureTime_markFailedOnce (s : RequestStatus) (now : Time) :
    (s.markFailedOnce now).failureTime = s.failureTime
      ∨ s.failureTime = none ∧ (s.markFailedOnce now).failureTime = some now := by
  cases hs : s.failureTime with
  | none => exact .inr ⟨rfl, by simp [markFailedOnce, hs]⟩
  | some time => exact .inl (by simp [markFailedOnce, hs])

theorem markFailedOnce_of_failed {time : Time} (h : s.failureTime = some time) (later : Time) :
    s.markFailedOnce later = s := by
  obtain ⟨conditions, certificate, ca, failureTime⟩ := s
  cases h
  rfl

theorem setCondition_again (n : Notice) (s : RequestStatus) (now later : Time) :
    (s.setCondition n.type n.status n.reason n.message now).setCondition
        n.type n.status n.reason n.message later =
      s.setCondition n.type n.status n.reason n.message now := by
  rw [setCondition, setCondition, Condition.set_of_untimed rfl]

theorem applyFailure_again (f : Failure) (s : RequestStatus) (now later : Time) :
    (s.applyFailure f now).applyFailure f later = s.applyFailure f now := by
  -- Only Ready is set, and whether the request is invalid is told by another condition: the second
  -- time takes the branch of the first.
  cases hinvalid : s.isInvalid with
  | true =>
    have hstill : ((s.markFailedOnce now).setCondition ConditionType.ready .no Reason.failed
        Message.invalidRequest now).isInvalid = true :=
      (isInvalid_setCondition_of_ne (by decide)).trans hinvalid
    have hfailed : ((s.markFailedOnce now).setCondition ConditionType.ready .no Reason.failed
        Message.invalidRequest now).failureTime = some (s.failureTime.getD now) := rfl
    rw [applyFailure, applyFailure, if_pos hinvalid, if_pos hstill,
      markFailedOnce_of_failed hfailed]
    exact setCondition_again ⟨_, _, _, _⟩ ..
  | false =>
    have hstill : (s.setCondition ConditionType.ready .no Reason.pending f.message now).isInvalid
        = false := (isInvalid_setCondition_of_ne (by decide)).trans hinvalid
    rw [applyFailure_of_valid hinvalid, applyFailure_of_valid hstill]
    exact setCondition_again ⟨_, _, _, _⟩ ..

theorem amends_change (s : RequestStatus) (c : Change) (now : Time) :
    s.Amends c now (s.change now c) := by
  cases c with
  | setCondition n =>
    exact ⟨n.put_set now s.conditions, .inl rfl, fun _ => ⟨rfl, rfl⟩,
      fun later => setCondition_again n s now later⟩
  | markFailedOnce =>
    exact ⟨rfl, failureTime_markFailedOnce s now, fun _ => ⟨rfl, rfl⟩,
      markFailedOnce_of_failed rfl⟩
  | setIssued certificate ca => exact ⟨rfl, .inl rfl, (nomatch ·), fun _ => rfl⟩
  | applyLocalDenial =>
    refine ⟨Notice.put_set ⟨_, _, _, _⟩ now s.conditions, failureTime_markFailedOnce s now,
      fun _ => ⟨rfl, rfl⟩, fun later => ?_⟩
    have hfailed := markFailedOnce_of_failed (s := s.applyLocalDenial now) rfl later
    change ((s.applyLocalDenial now).markFailedOnce later).setCondition _ _ _ _ later = _
    rw [hfailed]
    exact setCondition_again ⟨_, _, _, _⟩ ..
  | applyInvalidRequest f =>
    exact ⟨Notice.put_set ⟨_, _, _, _⟩ now s.conditions, .inl rfl, fun _ => ⟨rfl, rfl⟩,
      fun later => setCondition_again ⟨_, _, _, _⟩ s now later⟩
  | applyFailure f =>
    refine ⟨?_, ?_, fun _ => ?_, applyFailure_again f s now⟩
    · simp only [change, applyFailure, notice?]
      split
      next => exact Notice.put_set ⟨_, _, _, _⟩ now s.conditions
      next => exact Notice.put_set ⟨_, _, _, _⟩ now s.conditions
    · simp only [change, applyFailure]
      split
      next => exact failureTime_markFailedOnce s now
      next => exact .inl rfl
    · simp only [change, applyFailure]
      split
      next => exact ⟨rfl, rfl⟩
      next => exact ⟨rfl, rfl⟩

/-- What no change undoes: the conditions are there, each in its place, and no type gets a second
one; and a failure time stays. -/
structure Outlasts (s t : RequestStatus) : Prop where
  types : s.types <+: t.types
  distinct : s.types.Nodup → t.types.Nodup
  failureTime : ∀ time, s.failureTime = some time → t.failureTime = some time

theorem Outlasts.refl (s : RequestStatus) : s.Outlasts s :=
  ⟨List.prefix_rfl, id, fun _ => id⟩

theorem Outlasts.trans (h : s.Outlasts t) (h' : t.Outlasts u) : s.Outlasts u :=
  ⟨h.types.trans h'.types, h'.distinct ∘ h.distinct,
    fun time hs => h'.failureTime time (h.failureTime time hs)⟩

theorem Amends.outlasts {c : Change} (h : s.Amends c now t) : s.Outlasts t := by
  have htime : ∀ time, s.failureTime = some time → t.failureTime = some time := by
    intro time hs
    rcases h.failureTime with hkept | ⟨hnone, -⟩
    · exact hkept.trans hs
    · rw [hnone] at hs
      cases hs
  have hconditions := h.conditions
  cases hn : s.notice? c with
  | none =>
    rw [hn] at hconditions
    have htypes : t.types = s.types := congrArg (List.map _) hconditions
    exact ⟨htypes ▸ List.prefix_rfl, fun hs => htypes ▸ hs, htime⟩
  | some n =>
    rw [hn] at hconditions
    exact ⟨hconditions.types, hconditions.distinct, htime⟩

theorem outlasts_changeAll (s : RequestStatus) (changes : List (Change × Time)) :
    s.Outlasts (s.changeAll changes) := by
  induction changes generalizing s with
  | nil => exact .refl s
  | cons c changes ih => exact (s.amends_change c.1 c.2).outlasts.trans (ih _)

theorem unissued_changeAll {changes : List (Change × Time)}
    (h : ∀ c ∈ changes, c.1.issues = false) (s : RequestStatus) :
    (s.changeAll changes).certificate = s.certificate ∧ (s.changeAll changes).ca = s.ca := by
  induction changes generalizing s with
  | nil => exact ⟨rfl, rfl⟩
  | cons c changes ih =>
    obtain ⟨hc, hrest⟩ := List.forall_mem_cons.mp h
    obtain ⟨hcertificate, hca⟩ := (s.amends_change c.1 c.2).unissued hc
    obtain ⟨hcertificate', hca'⟩ := ih hrest (s.change c.2 c.1)
    exact ⟨hcertificate'.trans hcertificate, hca'.trans hca⟩

/-- Whatever changes are made to a status, its conditions stay in their places under their types,
no type comes to stand twice, a failure time stays, and so do certificate and CA if none of the
changes stores them; and each change, made to the status that was reached, says what it says in the
first condition of its type or in one at the end, moves the time of that condition only if its
status changes, and made again at any time does nothing. -/
theorem conditions_of_changes (s : RequestStatus) (changes : List (Change × Time)) :
    s.Outlasts (s.changeAll changes)
      ∧ ((∀ c ∈ changes, c.1.issues = false) →
          (s.changeAll changes).certificate = s.certificate ∧ (s.changeAll changes).ca = s.ca)
      ∧ ∀ c now, (s.changeAll changes).Amends c now ((s.changeAll changes).change now c) :=
  ⟨s.outlasts_changeAll changes, fun h => unissued_changeAll h s, fun c now =>
    amends_change _ c now⟩

/-- A status that has failed before, with two conditions of one type, of which the first has no
time. -/
def sampleRepeated : RequestStatus where
  conditions :=
    [⟨ConditionType.ready, .unknown, none, none, none⟩,
      ⟨ConditionType.ready, .yes, some Reason.issued, none, some ⟨1, 0, 0⟩⟩]
  failureTime := some ⟨2, 0, 0⟩

/-- A request that turns out to be invalid fails at its first Ready; its failure time stays, and the
failure is not recorded twice. -/
theorem conditions_of_sampleRepeated :
    let f : Failure := .invalidCsr "no PEM"
    let noted := sampleRepeated.changeAll [(.applyInvalidRequest f, ⟨3, 0, 0⟩)]
    let failed := noted.change ⟨4, 0, 0⟩ (.applyFailure f)
    failed.types = [ConditionType.ready, ConditionType.ready, ConditionType.invalidRequest]
      ∧ (failed.condition ConditionType.ready).bind (·.lastTransitionTime) = some ⟨4, 0, 0⟩
      ∧ failed.failureTime = some ⟨2, 0, 0⟩ ∧ failed.certificate = none
      ∧ ∀ later, failed.change later (.applyFailure f) = failed := by
  intro f noted failed
  obtain ⟨hlasts, hunissued, -⟩ := conditions_of_changes sampleRepeated
    [(.applyInvalidRequest f, ⟨3, 0, 0⟩), (.applyFailure f, ⟨4, 0, 0⟩)]
  obtain ⟨-, -, hamends⟩ :=
    conditions_of_changes sampleRepeated [(.applyInvalidRequest f, ⟨3, 0, 0⟩)]
  exact ⟨by decide, by decide, hlasts.failureTime _ rfl, (hunissued (by simp [Change.issues])).1,
    (hamends (.applyFailure f) ⟨4, 0, 0⟩).again⟩

end RequestStatus

end CertBroker
