import CertBroker.Proofs.Cluster.Server
import CertBroker.Proofs.Cluster.Status
import CertBroker.Proofs.Json.Fields
import CertBroker.Proofs.Time.Text

namespace CertBroker

open Json

theorem Time.ofJson?_toJson {t : Time} (h : t.Proper) : ofJson? t.toJson = some t := by
  rw [ofJson?, toJson, text?, Option.bind_some, parse?_text h]

theorem Time.legible (depth : Nat) {t : Time} (h : t.Proper) : Legible depth ofJson? toJson t :=
  ⟨.string depth t.text, by simp [toJson], ofJson?_toJson h⟩

theorem Time.proper_of_ofJson? {j : Json} {t : Time} (h : ofJson? j = some t) : t.Proper := by
  obtain ⟨_, _, ht⟩ := Option.bind_eq_some_iff.mp h
  exact proper_of_parse? ht

theorem Time.proper_of_optional {slot : Slot} {time : Option Time}
    (h : Json.optional ofJson? slot = some time) : ∀ t ∈ time, t.Proper := by
  rcases cases_of_optional h with ⟨rfl, -⟩ | ⟨_, t, -, -, ht, rfl⟩
  · simp
  · rintro _ ⟨⟩
    exact proper_of_ofJson? ht

theorem ConditionStatus.legible (depth : Nat) (s : ConditionStatus) :
    Legible depth ofJson? toJson s :=
  ⟨.string depth s.text, by simp [toJson], Condition.status_ofJson? s⟩

namespace Condition

/-- The transition time can be given. -/
def Timely (c : Condition) : Prop := ∀ t ∈ c.lastTransitionTime, t.Proper

def fields (c : Condition) : List (String × Slot) :=
  [("type", some (.string c.type)), ("status", some c.status.toJson),
    ("reason", c.reason.map .string), ("message", c.message.map .string),
    ("lastTransitionTime", c.lastTransitionTime.map Time.toJson)]

theorem toJson_eq (c : Condition) : c.toJson = .object (membersOf c.fields) := by
  simp [toJson, fields, membersOf, member_eq, memberIf_eq]

theorem legible (depth : Nat) {c : Condition} (h : c.Timely) :
    Legible (depth + 1) ofJson? toJson c := by
  have htype := (Legible.text depth c.type).required
  have hstatus := (ConditionStatus.legible depth c.status).required
  have hreason := Legible.optional fun reason (_ : reason ∈ c.reason) => Legible.text depth reason
  have hmessage := Legible.optional fun message (_ : message ∈ c.message) =>
    Legible.text depth message
  have htime := Legible.optional fun time hc => Time.legible depth (h time hc)
  refine .record c.toJson_eq (fun _ => rfl) rfl (by decide) ?_ ?_
  · simp only [fields, List.forall_mem_cons]
    exact ⟨htype.written, hstatus.written, hreason.written, hmessage.written, htime.written,
      List.forall_mem_nil _⟩
  · simp only [fields, List.map_cons, List.map_nil, htype.read, hstatus.read, hreason.read,
      hmessage.read, htime.read, Option.bind_eq_bind, Option.bind_some, Option.pure_def]

theorem mapM_ofJson? {cs : List Condition} (h : ∀ c ∈ cs, c.Timely) :
    (cs.map toJson).mapM ofJson? = some cs :=
  (Legible.items fun c hc => legible 0 (h c hc)).read

theorem timely_of_ofJson? {j : Json} {c : Condition} (h : ofJson? j = some c) : c.Timely := by
  simp only [ofJson?, Option.bind_eq_bind, Option.bind_eq_some_iff] at h
  obtain ⟨fields, _, h⟩ := h
  split at h
  next =>
    simp only [Option.bind_eq_some_iff] at h
    obtain ⟨_, _, _, _, _, _, _, _, time, htime, h⟩ := h
    cases h
    exact Time.proper_of_optional htime
  next => exact absurd h (by simp)

end Condition

namespace RequestStatus

variable {s t o : RequestStatus} {ms : List (String × Json)}

/-- All times in a status can be given. -/
structure Timely (s : RequestStatus) : Prop where
  conditions : ∀ c ∈ s.conditions, c.Timely
  failureTime : ∀ t ∈ s.failureTime, t.Proper

theorem timely_empty : ({} : RequestStatus).Timely := ⟨by simp, by simp⟩

theorem timely_of_ofJson? {j : Json} (h : ofJson? j = some s) : s.Timely := by
  simp only [ofJson?, Option.bind_eq_bind, Option.bind_eq_some_iff] at h
  obtain ⟨fields, _, h⟩ := h
  split at h
  next =>
    simp only [Option.bind_eq_some_iff] at h
    obtain ⟨_, hconditions, _, _, _, _, _, htime, h⟩ := h
    cases h
    exact ⟨forall_of_defaulted Condition.timely_of_ofJson? hconditions,
      Time.proper_of_optional htime⟩
  next => exact absurd h (by simp)

theorem Fields.unique (hs : Fields ms s) (ht : Fields ms t) : s = t := by
  obtain ⟨conditions, certificate, ca, failureTime⟩ := s
  obtain ⟨conditions', certificate', ca', failureTime'⟩ := t
  simp only [mk.injEq]
  exact ⟨Option.some.inj (hs.conditions.symm.trans ht.conditions),
    Option.some.inj (hs.certificate.symm.trans ht.certificate),
    Option.some.inj (hs.ca.symm.trans ht.ca),
    Option.some.inj (hs.failureTime.symm.trans ht.failureTime)⟩

/-- A status over another, of which it keeps what it leaves out itself. -/
def laidOver (s o : RequestStatus) : RequestStatus where
  conditions := if s.conditions = [] then o.conditions else s.conditions
  certificate := s.certificate.or o.certificate
  ca := s.ca.or o.ca
  failureTime := s.failureTime.or o.failureTime

theorem fields_of_merged (ho : Fields ms o) (hs : s.Timely) :
    ∃ patch, s.toJson = .object patch ∧ Fields (mergeMembers ms patch) (s.laidOver o) := by
  refine ⟨_, rfl, ?_⟩
  have htext : ∀ v, ∃ text, Json.string v = .string text := fun v => ⟨v, rfl⟩
  have htime : ∀ t, ∃ text, Time.toJson t = .string text := fun t => ⟨t.text, rfl⟩
  rw [mergeMembers_append, mergeMembers_append, mergeMembers_append]
  generalize hcs : mergeMembers ms (memberList "conditions" Condition.toJson s.conditions) = cs
  have hother (n : String) (hn : n ≠ "conditions") : member? n cs = member? n ms := by
    rw [← hcs]
    apply member?_mergeMembers_of_notMem
    cases s.conditions <;> simp [memberList, hn]
  have hself : defaulted [] (items? Condition.ofJson?) (member? "conditions" cs) =
      some (s.laidOver o).conditions := by
    rw [← hcs, laidOver]
    by_cases hne : s.conditions = []
    · simp only [hne, memberList, List.isEmpty_nil, if_true, mergeMembers_nil]
      exact ho.conditions
    · have hlist : memberList "conditions" Condition.toJson s.conditions =
          [("conditions", .array (s.conditions.map Condition.toJson))] := by
        simp [memberList, hne]
      rw [hlist, mergeMembers_cons, mergeMembers_nil, member?_mergeMember_self (by simp),
        mergePatch, if_neg hne]
      · exact Condition.mapM_ofJson? hs.conditions
      · simp
  refine ⟨?_, ?_, ?_, ?_⟩
  · rw [member?_mergeMembers_memberIf htime, if_neg (by decide),
      member?_mergeMembers_memberIf htext, if_neg (by decide),
      member?_mergeMembers_memberIf htext, if_neg (by decide), hself]
  · rw [member?_mergeMembers_memberIf htime, if_neg (by decide),
      member?_mergeMembers_memberIf htext, if_neg (by decide),
      member?_mergeMembers_memberIf htext, if_pos rfl, hother _ (by decide)]
    exact optional_or htext (fun _ _ => rfl) ho.certificate
  · rw [member?_mergeMembers_memberIf htime, if_neg (by decide),
      member?_mergeMembers_memberIf htext, if_pos rfl,
      member?_mergeMembers_memberIf htext, if_neg (by decide), hother _ (by decide)]
    exact optional_or htext (fun _ _ => rfl) ho.ca
  · rw [member?_mergeMembers_memberIf htime, if_pos rfl,
      member?_mergeMembers_memberIf htext, if_neg (by decide),
      member?_mergeMembers_memberIf htext, if_neg (by decide), hother _ (by decide)]
    exact optional_or htime (fun t ht => Time.ofJson?_toJson (hs.failureTime t ht)) ho.failureTime

end RequestStatus

theorem or_eq_left {α : Type} {x y : Option α} (h : y.isSome = true → x.isSome = true) :
    x.or y = x := by
  cases x with
  | some => rfl
  | none =>
    cases y with
    | none => rfl
    | some => exact absurd (h rfl) (by simp)

namespace Stored

variable {a : Api.Address} {i j k : Stored} {q read after : CertificateRequest}

/-- The members of the status, none if it is no object. -/
def statusMembers (j : Stored) : Stored := (j.status?.bind members?).getD []

/-- The CA in a status that is stored as an object. -/
def storedCa (j : Stored) : Option String := (member? "ca" j.statusMembers).bind text?

theorem storedCa_eq_of_status (h : j.status? = i.status?) : j.storedCa = i.storedCa := by
  rw [storedCa, statusMembers, h, storedCa, statusMembers]

/-- What others leave as it is: the annotations, the status, and that the request can be read. -/
structure Retains (a : Api.Address) (i j : Stored) : Prop where
  annotations : member? "annotations" j.metadata = member? "annotations" i.metadata
  status : j.status? = i.status?
  holds : (∃ q, i.Holds a q) → ∃ q, j.Holds a q

namespace Retains

theorem refl (i : Stored) : Retains a i i := ⟨rfl, rfl, id⟩

theorem trans (h : Retains a i j) (h' : Retains a j k) : Retains a i k :=
  ⟨h'.annotations.trans h.annotations, h'.status.trans h.status, h'.holds ∘ h.holds⟩

theorem storedCa_eq (h : Retains a i j) : j.storedCa = i.storedCa :=
  storedCa_eq_of_status h.status

theorem of_served (h : Served a (Retains a) i [] j) : Retains a i j :=
  h.invariant (P := Retains a i) (fun _ _ ho hi => hi.trans ho) (by simp) (refl i)

end Retains

namespace Holds

theorem timely (h : j.Holds a q) : q.currentStatus.Timely := by
  rw [CertificateRequest.currentStatus]
  rcases cases_of_optional h.status with ⟨hnone, -⟩ | ⟨_, s, -, -, hs, hsome⟩
  · rw [hnone]
    exact RequestStatus.timely_empty
  · rw [hsome]
    exact RequestStatus.timely_of_ofJson? hs

theorem annotations_eq (hj : j.Holds a q) (hk : k.Holds a read)
    (h : member? "annotations" k.metadata = member? "annotations" j.metadata) :
    read.metadata.annotations = q.metadata.annotations :=
  eq_of_member?_eq h hj.metadata.annotations hk.metadata.annotations

theorem currentStatus_of_status (hj : j.Holds a q) (hk : k.Holds a read)
    (h : k.status? = j.status?) : read.currentStatus = q.currentStatus := by
  rw [← hk.currentStatus_eq, ← hj.currentStatus_eq, currentStatus, h, currentStatus]

/-- The members of a stored status are those of the status that is read, or there are none. -/
theorem exists_fields (h : j.Holds a q) : ∃ o, RequestStatus.Fields j.statusMembers o ∧
    (o = {} ∨ o = q.currentStatus) := by
  rcases cases_of_optional h.status with ⟨-, hs | hs⟩ | ⟨v, s, hs, -, hread, hsome⟩
  · refine ⟨{}, ?_, .inl rfl⟩
    rw [statusMembers, hs]
    exact ⟨rfl, rfl, rfl, rfl⟩
  · refine ⟨{}, ?_, .inl rfl⟩
    rw [statusMembers, hs]
    exact ⟨rfl, rfl, rfl, rfl⟩
  · cases v with
    | object ms =>
      refine ⟨s, ?_, .inr ?_⟩
      · rw [statusMembers, hs]
        exact RequestStatus.fields_of_read hread
      · rw [CertificateRequest.currentStatus, hsome]
        rfl
    | _ =>
      refine ⟨{}, ?_, .inl rfl⟩
      rw [statusMembers, hs]
      exact ⟨rfl, rfl, rfl, rfl⟩

end Holds

theorem storedCa_of_fields {o : RequestStatus} (h : RequestStatus.Fields j.statusMembers o) :
    j.storedCa = o.ca := by
  rw [storedCa]
  rcases cases_of_optional h.ca with ⟨hnone, hs | hs⟩ | ⟨v, text, hs, -, htext, hsome⟩
  · rw [hs, hnone]
    rfl
  · rw [hs, hnone]
    rfl
  · rw [hs, hsome]
    exact htext

/-- The stored CA is the one that is read, unless the status is no object. -/
theorem Holds.storedCa_eq (h : j.Holds a q) :
    j.storedCa = none ∨ j.storedCa = q.currentStatus.ca := by
  obtain ⟨o, ho, rfl | rfl⟩ := h.exists_fields
  · exact .inl (storedCa_of_fields ho)
  · exact .inr (storedCa_of_fields ho)

/-- Nothing is kept for a status with a CA, or for one that was read without. -/
theorem Holds.ca_or_storedCa (h : j.Holds a q) {s : RequestStatus}
    (hs : q.currentStatus.ca.isSome = true → s.ca.isSome = true) :
    { s with ca := s.ca.or j.storedCa } = s := by
  have hca : s.ca.or j.storedCa = s.ca := by
    rcases h.storedCa_eq with hnone | hsame
    · rw [hnone, Option.or_none]
    · rw [hsame, or_eq_left hs]
  rw [hca]

namespace Applied

/-- Annotations that were written are read back, if they have a value for each stored one. -/
theorem readback_of_annotations (h : j.Applied (.annotations after) k) (hj : j.Holds a q)
    (hk : k.Holds a read) (hsome : after.metadata.annotations.isSome = true)
    (hkeys : ∀ key, (q.metadata.annotation? key).isSome = true →
      (after.metadata.annotation? key).isSome = true) :
    read.metadata.annotations = after.metadata.annotations := by
  obtain ⟨d, hd⟩ := Option.isSome_iff_exists.mp hsome
  have hmerged := h.merged_annotations hd
  have hread := hk.metadata.annotations
  rw [looseSlot, hmerged.member?_annotations] at hread
  obtain ⟨found, -, hfound⟩ := Option.map_eq_some_iff.mp hread
  have hget (key : String) : found.get? key = (d.get? key).or (q.metadata.annotation? key) := by
    rw [hj.annotation?, ← hmerged.annotation?_eq, ← hk.annotation?, Metadata.annotation?, ← hfound]
    rfl
  rw [← hfound, hd]
  congr 1
  refine Dict.eq_of_get?_eq fun key => ?_
  rw [hget]
  cases hvalue : d.get? key with
  | some text => rfl
  | none =>
    -- A key without a value in the patch had none before.
    rw [Option.none_or]
    cases hbefore : q.metadata.annotation? key with
    | none => rfl
    | some text =>
      have hafter := hkeys key (by simp [hbefore])
      rw [Metadata.annotation?, hd, Option.bind_some, hvalue] at hafter
      exact absurd hafter (by simp)

/-- A status that was written is read back over the stored one. -/
theorem exists_laidOver {s : RequestStatus} {version : Option String}
    (h : j.Applied (.status after version) k) (hj : j.Holds a q) (hk : k.Holds a read)
    (hs : after.status = some s) (htimely : s.Timely) :
    ∃ o, RequestStatus.Fields j.statusMembers o ∧ (o = {} ∨ o = q.currentStatus) ∧
      read.currentStatus = s.laidOver o := by
  obtain ⟨o, ho, hor⟩ := hj.exists_fields
  obtain ⟨patch, hpatch, hfields⟩ := RequestStatus.fields_of_merged ho htimely
  have hmembers : (j.status?.getD .null).members?.getD [] = j.statusMembers := by
    rw [statusMembers]
    cases j.status? <;> rfl
  have hread := hk.status
  rw [h.status?_of_status hs, hpatch, mergePatch_object, hmembers] at hread
  obtain ⟨t, ht, hsome⟩ := Option.map_eq_some_iff.mp hread
  refine ⟨o, ho, hor, ?_⟩
  rw [CertificateRequest.currentStatus, ← hsome, Option.getD_some]
  exact (RequestStatus.fields_of_read ht).unique hfields

/-- A status that was written is read back, but for a CA it leaves out, where the stored one
stays. -/
theorem readback_of_status {s : RequestStatus} {version : Option String}
    (h : j.Applied (.status after version) k) (hj : j.Holds a q) (hk : k.Holds a read)
    (hs : after.status = some s) (htimely : s.Timely) (hne : s.conditions ≠ [])
    (hcertificate : q.currentStatus.certificate.isSome = true → s.certificate.isSome = true)
    (hfailure : q.currentStatus.failureTime.isSome = true → s.failureTime.isSome = true) :
    read.currentStatus = { s with ca := s.ca.or j.storedCa } := by
  obtain ⟨o, ho, hor, hread⟩ := h.exists_laidOver hj hk hs htimely
  have hkept : s.certificate.or o.certificate = s.certificate ∧
      s.failureTime.or o.failureTime = s.failureTime := by
    rcases hor with rfl | rfl
    · exact ⟨Option.or_none, Option.or_none⟩
    · exact ⟨or_eq_left hcertificate, or_eq_left hfailure⟩
  rw [hread, RequestStatus.laidOver, if_neg hne, hkept.1, hkept.2, storedCa_of_fields ho]

end Applied

end Stored

end CertBroker
