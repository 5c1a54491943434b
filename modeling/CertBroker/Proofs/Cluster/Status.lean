import CertBroker.Pass.Verdict
import CertBroker.Proofs.Cluster.Stored

namespace CertBroker

open Json

namespace Condition

/-- What verdicts look at. -/
def mark (c : Condition) : String × ConditionStatus × String := (c.type, c.status, c.reasonText)

theorem status_ofJson? (s : ConditionStatus) : ConditionStatus.ofJson? s.toJson = some s := by
  cases s <;> rfl

/-- All of a condition but its time. -/
def untimed (c : Condition) : Condition := { c with lastTransitionTime := none }

theorem untimed_of_read {c d : Condition} (h : ofJson? c.toJson = some d) :
    d.untimed = c.untimed := by
  obtain ⟨type, status, reason, message, time⟩ := c
  cases time with
  | none =>
    cases reason <;> cases message <;>
      simp [ofJson?, toJson, record?, slot?, membersNamed, member, memberIf, required, text?,
        status_ofJson?, Json.optional] at h
    all_goals
      subst h
      rfl
  | some time =>
    cases reason <;> cases message <;>
      simp [ofJson?, toJson, record?, slot?, membersNamed, member, memberIf, required, text?,
        status_ofJson?, Json.optional, Option.bind_eq_some_iff] at h
    all_goals
      obtain ⟨_, _, rfl⟩ := h
      rfl

theorem untimed_of_mapM {cs ds : List Condition}
    (h : (cs.map toJson).mapM ofJson? = some ds) : ds.map untimed = cs.map untimed := by
  induction cs generalizing ds with
  | nil =>
    cases h
    rfl
  | cons c cs ih =>
    simp only [List.map_cons, List.mapM_cons, Option.bind_eq_bind, Option.bind_eq_some_iff] at h
    obtain ⟨d, hd, rest, hrest, hall⟩ := h
    cases hall
    rw [List.map_cons, List.map_cons, untimed_of_read hd, ih hrest]

theorem map_untimed_find (type : String) (cs : List Condition) :
    (find type cs).map untimed = find type (cs.map untimed) := by
  rw [find, find, List.find?_map]
  rfl

theorem map_mark_find (type : String) (cs : List Condition) :
    (find type cs).map mark = (cs.map mark).find? fun m => m.1 = type := by
  rw [List.find?_map]
  rfl

variable {type : String} {status : ConditionStatus} {reason message : String} {now later : Time}

theorem set_of_untimed_head {c : Condition} {rest : List Condition}
    (h : c.untimed = ⟨type, status, some reason, some message, none⟩) :
    set type status reason message later (c :: rest) = c :: rest := by
  obtain ⟨type', status', reason', message', time⟩ := c
  cases h
  simp [set]

/-- A condition that says already what is set keeps its time. -/
theorem set_of_untimed {cs ds : List Condition}
    (h : cs.map untimed = (set type status reason message now ds).map untimed) :
    set type status reason message later cs = cs := by
  induction ds generalizing cs with
  | nil =>
    obtain ⟨c, rest, rfl, hc, -⟩ := List.map_eq_cons_iff.mp h
    exact set_of_untimed_head hc
  | cons d ds ih =>
    by_cases hd : d.type = type
    · rw [set, if_pos hd] at h
      obtain ⟨c, rest, rfl, hc, -⟩ := List.map_eq_cons_iff.mp h
      exact set_of_untimed_head (hc.trans (by rw [← hd]; rfl))
    · rw [set, if_neg hd] at h
      obtain ⟨c, rest, rfl, hc, hrest⟩ := List.map_eq_cons_iff.mp h
      have hne : c.type ≠ type := fun hsame => hd ((congrArg Condition.type hc).symm.trans hsame)
      rw [set, if_neg hne, ih hrest]

end Condition

namespace RequestStatus

variable {s t : RequestStatus}

def marks (s : RequestStatus) : List (String × ConditionStatus × String) :=
  s.conditions.map Condition.mark

theorem any_condition_eq (h : s.marks = t.marks) (type : String)
    (ask : String × ConditionStatus × String → Bool) :
    (s.condition type).any (fun c => ask c.mark) = (t.condition type).any fun c => ask c.mark := by
  have hmark : (s.condition type).map Condition.mark = (t.condition type).map Condition.mark := by
    rw [condition, condition, Condition.map_mark_find, Condition.map_mark_find]
    exact congrArg _ h
  have hany (o : Option Condition) :
      o.any (fun c => ask c.mark) = (o.map Condition.mark).any ask := by
    cases o <;> rfl
  rw [hany, hany, hmark]

theorem terminal?_eq_of_marks (h : s.marks = t.marks) : s.terminal? = t.terminal? := by
  have hready : s.hasTrue ConditionType.ready = t.hasTrue ConditionType.ready :=
    any_condition_eq h _ fun m => m.2.1 == .yes
  have his (reason : String) : s.readyIs .no reason = t.readyIs .no reason :=
    any_condition_eq h _ fun m => m.2.1 == .no && m.2.2 == reason
  have hdenied : (s.condition ConditionType.denied).any
      (fun c => c.isTrue && c.reasonText == Reason.pki) =
      (t.condition ConditionType.denied).any fun c => c.isTrue && c.reasonText == Reason.pki :=
    any_condition_eq h _ fun m => m.2.1 == .yes && m.2.2 == Reason.pki
  rw [terminal?, terminal?, hready, his, his, hdenied]

/-- What the members of an object say of a status. -/
structure Fields (ms : List (String × Json)) (s : RequestStatus) : Prop where
  conditions : defaulted [] (items? Condition.ofJson?) (member? "conditions" ms) =
    some s.conditions
  certificate : Json.optional text? (member? "certificate" ms) = some s.certificate
  ca : Json.optional text? (member? "ca" ms) = some s.ca
  failureTime : Json.optional Time.ofJson? (member? "failureTime" ms) = some s.failureTime

theorem fields_of_read {ms : List (String × Json)} (h : ofJson? (.object ms) = some s) :
    Fields ms s := by
  simp only [ofJson?, record?, List.mapM_cons, List.mapM_nil, Option.bind_eq_bind,
    Option.bind_eq_some_iff] at h
  obtain ⟨_, ⟨conditions, hconditions, _, ⟨certificate, hcertificate, _, ⟨ca, hca, _,
    ⟨failureTime, hfailureTime, _, hnil, hlast⟩, hthird⟩, hsecond⟩, hall⟩, h⟩ := h
  cases hnil
  cases hlast
  cases hthird
  cases hsecond
  cases hall
  simp only [Option.bind_eq_some_iff] at h
  obtain ⟨_, hc, _, hcert, _, hca', _, htime, h⟩ := h
  cases h
  refine ⟨?_, ?_, ?_, ?_⟩
  · rw [Stored.member?_of_slot? hconditions]
    exact hc
  · rw [Stored.member?_of_slot? hcertificate]
    exact hcert
  · rw [Stored.member?_of_slot? hca]
    exact hca'
  · rw [Stored.member?_of_slot? hfailureTime]
    exact htime

theorem marks_eq_of_untimed
    (h : s.conditions.map Condition.untimed = t.conditions.map Condition.untimed) :
    s.marks = t.marks := by
  have hmarks (u : RequestStatus) :
      u.marks = (u.conditions.map Condition.untimed).map Condition.mark := by
    rw [marks, List.map_map]
    rfl
  rw [hmarks, hmarks, h]

/-- A status with conditions that is merged and read back has the conditions that were written,
but perhaps for their times. -/
theorem untimed_of_merged {old : Json} {read : Option RequestStatus} (hne : s.conditions ≠ [])
    (h : Json.optional ofJson? (some (mergePatch old s.toJson)) = some read) :
    ∃ t, read = some t ∧
      t.conditions.map Condition.untimed = s.conditions.map Condition.untimed := by
  have hlist : memberList "conditions" Condition.toJson s.conditions =
      [("conditions", .array (s.conditions.map Condition.toJson))] := by
    simp [memberList, hne]
  rw [toJson, hlist, List.append_assoc, List.append_assoc, mergePatch] at h
  obtain ⟨t, ht, rfl⟩ := Option.map_eq_some_iff.mp h
  refine ⟨t, rfl, ?_⟩
  have hread := (fields_of_read ht).conditions
  rw [List.singleton_append, mergeMembers_cons, member?_mergeMembers_of_notMem,
    member?_mergeMember_self (by simp), mergePatch] at hread
  · exact Condition.untimed_of_mapM hread
  · simp
  · cases s.certificate <;> cases s.ca <;> cases s.failureTime <;> simp [memberIf]

/-- A status with conditions that is merged and read back has the marks that were written. -/
theorem marks_of_merged {old : Json} {read : Option RequestStatus} (hne : s.conditions ≠ [])
    (h : Json.optional ofJson? (some (mergePatch old s.toJson)) = some read) :
    ∃ t, read = some t ∧ t.marks = s.marks := by
  obtain ⟨t, ht, huntimed⟩ := untimed_of_merged hne h
  exact ⟨t, ht, marks_eq_of_untimed huntimed⟩

end RequestStatus

end CertBroker
