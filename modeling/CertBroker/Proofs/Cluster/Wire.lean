import CertBroker.Cluster.CertificateRequest
import CertBroker.Cluster.Issuer
import CertBroker.Proofs.Cluster.Readback
import CertBroker.Proofs.Json.Fields

namespace CertBroker

open Json

namespace IssuerReference

def fields (r : IssuerReference) : List (String × Slot) :=
  [("name", some (.string r.name)), ("kind", r.kind.map .string), ("group", r.group.map .string)]

theorem toJson_eq (r : IssuerReference) : r.toJson = .object (membersOf r.fields) := by
  simp [toJson, fields, membersOf, member_eq, memberIf_eq]

theorem legible (depth : Nat) (r : IssuerReference) : Legible (depth + 1) ofJson? toJson r := by
  have hname := (Legible.text depth r.name).required
  have hkind := Legible.optional fun kind (_ : kind ∈ r.kind) => Legible.text depth kind
  have hgroup := Legible.optional fun group (_ : group ∈ r.group) => Legible.text depth group
  refine .record r.toJson_eq (fun _ => rfl) rfl (by decide) ?_ ?_
  · simp only [fields, List.forall_mem_cons]
    exact ⟨hname.written, hkind.written, hgroup.written, List.forall_mem_nil _⟩
  · simp only [fields, List.map_cons, List.map_nil, hname.read, hkind.read, hgroup.read,
      Option.bind_eq_bind, Option.bind_some, Option.pure_def]

end IssuerReference

namespace RequestStatus

def fields (s : RequestStatus) : List (String × Slot) :=
  [("conditions", slotUnless s.conditions.isEmpty (fun cs => .array (cs.map Condition.toJson))
      s.conditions),
    ("certificate", s.certificate.map .string), ("ca", s.ca.map .string),
    ("failureTime", s.failureTime.map Time.toJson)]

theorem toJson_eq (s : RequestStatus) : s.toJson = .object (membersOf s.fields) := by
  simp [toJson, fields, membersOf, memberList_eq, memberIf_eq]

theorem legible (depth : Nat) {s : RequestStatus} (h : s.Timely) :
    Legible (depth + 3) ofJson? toJson s := by
  have hitems := Legible.items fun c hc => Condition.legible depth (h.conditions c hc)
  have hconditions := hitems.defaulted List.isEmpty_iff.mp
  have hcertificate := Legible.optional fun certificate (_ : certificate ∈ s.certificate) =>
    Legible.text (depth + 2) certificate
  have hca := Legible.optional fun ca (_ : ca ∈ s.ca) => Legible.text (depth + 2) ca
  have htime := Legible.optional fun time ht => Time.legible (depth + 2) (h.failureTime time ht)
  refine .record s.toJson_eq (fun _ => rfl) rfl (by decide) ?_ ?_
  · simp only [fields, List.forall_mem_cons]
    exact ⟨hconditions.written, hcertificate.written, hca.written, htime.written,
      List.forall_mem_nil _⟩
  · simp only [fields, List.map_cons, List.map_nil, hconditions.read, hcertificate.read, hca.read,
      htime.read, Option.bind_eq_bind, Option.bind_some, Option.pure_def]

end RequestStatus

namespace AttributeTemplate

def fields (t : AttributeTemplate) : List (String × Slot) :=
  [("labels", slotUnless t.labels.isEmpty ofTexts t.labels), ("owner", t.owner.map .string),
    ("team", t.team.map .string), ("contactEmail", t.contactEmail.map .string)]

theorem toJson_eq (t : AttributeTemplate) : t.toJson = .object (membersOf t.fields) := by
  simp [toJson, fields, membersOf, member_eq, memberIf_eq, ite_fieldMember, slotUnless]

theorem legible (depth : Nat) (t : AttributeTemplate) : Legible (depth + 2) ofJson? toJson t := by
  have htexts : Legible (depth + 1) (dict? text?) ofTexts t.labels :=
    .dict fun label _ => Legible.text depth label.2
  have hlabels := htexts.defaulted Dict.eq_empty_of_isEmpty
  have howner := Legible.optional fun owner (_ : owner ∈ t.owner) => Legible.text (depth + 1) owner
  have hteam := Legible.optional fun team (_ : team ∈ t.team) => Legible.text (depth + 1) team
  have hemail := Legible.optional fun email (_ : email ∈ t.contactEmail) =>
    Legible.text (depth + 1) email
  refine .record t.toJson_eq (fun _ => rfl) rfl (by decide) ?_ ?_
  · simp only [fields, List.forall_mem_cons]
    exact ⟨hlabels.written, howner.written, hteam.written, hemail.written, List.forall_mem_nil _⟩
  · simp only [fields, List.map_cons, List.map_nil, hlabels.read, howner.read, hteam.read,
      hemail.read, Option.bind_eq_bind, Option.bind_some, Option.pure_def]

end AttributeTemplate

namespace DnsChecker

theorem legible (depth : Nat) (d : DnsChecker) : Legible (depth + 1) ofJson? toJson d := by
  have hserver := (Legible.text depth d.server).required
  have hwrite : d.toJson = .object (membersOf [("server", some (.string d.server))]) := rfl
  refine .record hwrite (fun _ => rfl) rfl (by decide) ?_ ?_
  · simp only [List.forall_mem_cons]
    exact ⟨hserver.written, List.forall_mem_nil _⟩
  · simp only [List.map_cons, List.map_nil, hserver.read, Option.bind_eq_bind, Option.bind_some,
      Option.pure_def]

end DnsChecker

namespace IssuerSpec

def fields (s : IssuerSpec) : List (String × Slot) :=
  [("url", some (.string s.url)), ("proxy", s.proxy.map .string),
    ("profile", some (.string s.profile)), ("authSecretName", some (.string s.authSecretName)),
    ("caBundle", s.caBundle.map .string), ("skipTLSVerify", some (.bool s.skipTLSVerify)),
    ("revokeCertificates", some (.bool s.revokeCertificates)),
    ("defaultTemplate", s.defaultTemplate.map AttributeTemplate.toJson),
    ("overrideTemplate", s.overrideTemplate.map AttributeTemplate.toJson),
    ("dnsChecker", s.dnsChecker.map DnsChecker.toJson)]

theorem toJson_eq (s : IssuerSpec) : s.toJson = .object (membersOf s.fields) := by
  simp [toJson, fields, membersOf, member_eq, memberIf_eq]

theorem legible (depth : Nat) (s : IssuerSpec) : Legible (depth + 3) ofJson? toJson s := by
  have hurl := (Legible.text (depth + 2) s.url).required
  have hproxy := Legible.optional fun proxy (_ : proxy ∈ s.proxy) => Legible.text (depth + 2) proxy
  have hprofile := (Legible.text (depth + 2) s.profile).required
  have hsecret := (Legible.text (depth + 2) s.authSecretName).required
  have hbundle := Legible.optional fun bundle (_ : bundle ∈ s.caBundle) =>
    Legible.text (depth + 2) bundle
  have hskip := (Legible.flag (depth + 2) s.skipTLSVerify).kept false
  have hrevoke := (Legible.flag (depth + 2) s.revokeCertificates).kept false
  have hdefault := Legible.optional fun t (_ : t ∈ s.defaultTemplate) => t.legible depth
  have hoverride := Legible.optional fun t (_ : t ∈ s.overrideTemplate) => t.legible depth
  have hchecker := Legible.optional fun d (_ : d ∈ s.dnsChecker) => d.legible (depth + 1)
  refine .record s.toJson_eq (fun _ => rfl) rfl (by decide) ?_ ?_
  · simp only [fields, List.forall_mem_cons]
    exact ⟨hurl.written, hproxy.written, hprofile.written, hsecret.written, hbundle.written,
      hskip.written, hrevoke.written, hdefault.written, hoverride.written, hchecker.written,
      List.forall_mem_nil _⟩
  · simp only [fields, List.map_cons, List.map_nil, hurl.read, hproxy.read, hprofile.read,
      hsecret.read, hbundle.read, hskip.read, hrevoke.read, hdefault.read, hoverride.read,
      hchecker.read, Option.bind_eq_bind, Option.bind_some, Option.pure_def]

end IssuerSpec

namespace IssuerCondition

/-- The transition time can be given. -/
def Timely (c : IssuerCondition) : Prop := ∀ t ∈ c.lastTransitionTime, t.Proper

def fields (c : IssuerCondition) : List (String × Slot) :=
  [("type", some (.string c.type)), ("status", some c.status.toJson),
    ("lastTransitionTime", c.lastTransitionTime.map Time.toJson),
    ("reason", slotUnless c.reason.isEmpty .string c.reason),
    ("message", slotUnless c.message.isEmpty .string c.message)]

theorem toJson_eq (c : IssuerCondition) : c.toJson = .object (membersOf c.fields) := by
  simp [toJson, fields, membersOf, member_eq, memberIf_eq, ite_fieldMember, slotUnless]

theorem legible (depth : Nat) {c : IssuerCondition} (h : c.Timely) :
    Legible (depth + 1) ofJson? toJson c := by
  have htype := (Legible.text depth c.type).required
  have hstatus := (ConditionStatus.legible depth c.status).required
  have htime := Legible.optional fun time hc => Time.legible depth (h time hc)
  have hreason := (Legible.text depth c.reason).defaulted String.isEmpty_iff.mp
  have hmessage := (Legible.text depth c.message).defaulted String.isEmpty_iff.mp
  refine .record c.toJson_eq (fun _ => rfl) rfl (by decide) ?_ ?_
  · simp only [fields, List.forall_mem_cons]
    exact ⟨htype.written, hstatus.written, htime.written, hreason.written, hmessage.written,
      List.forall_mem_nil _⟩
  · simp only [fields, List.map_cons, List.map_nil, htype.read, hstatus.read, htime.read,
      hreason.read, hmessage.read, Option.bind_eq_bind, Option.bind_some, Option.pure_def]

theorem timely_of_ofJson? {j : Json} {c : IssuerCondition} (h : ofJson? j = some c) :
    c.Timely := by
  simp only [ofJson?, Option.bind_eq_bind, Option.bind_eq_some_iff] at h
  obtain ⟨fields, _, h⟩ := h
  split at h
  next =>
    simp only [Option.bind_eq_some_iff] at h
    obtain ⟨_, _, _, _, time, htime, _, _, _, _, h⟩ := h
    cases h
    exact Time.proper_of_optional htime
  next => exact absurd h (by simp)

end IssuerCondition

namespace IssuerStatus

/-- All times in a status can be given. -/
def Timely (s : IssuerStatus) : Prop := ∀ c ∈ s.conditions, c.Timely

theorem legible (depth : Nat) {s : IssuerStatus} (h : s.Timely) :
    Legible (depth + 3) ofJson? toJson s := by
  have hitems := Legible.items fun c hc => IssuerCondition.legible depth (h c hc)
  have hconditions := hitems.defaulted List.isEmpty_iff.mp
  have hwrite : s.toJson = .object (membersOf [("conditions", slotUnless s.conditions.isEmpty
      (fun cs => .array (cs.map IssuerCondition.toJson)) s.conditions)]) := by
    simp [toJson, membersOf, memberList_eq]
  refine .record hwrite (fun _ => rfl) rfl (by decide) ?_ ?_
  · simp only [List.forall_mem_cons]
    exact ⟨hconditions.written, List.forall_mem_nil _⟩
  · simp only [List.map_cons, List.map_nil, hconditions.read, Option.bind_eq_bind,
      Option.bind_some, Option.pure_def]

theorem timely_of_ofJson? {j : Json} {s : IssuerStatus} (h : ofJson? j = some s) : s.Timely := by
  simp only [ofJson?, Option.bind_eq_bind, Option.bind_eq_some_iff] at h
  obtain ⟨fields, _, h⟩ := h
  split at h
  next =>
    simp only [Option.bind_eq_some_iff] at h
    obtain ⟨_, hconditions, h⟩ := h
    cases h
    exact forall_of_defaulted IssuerCondition.timely_of_ofJson? hconditions
  next => exact absurd h (by simp)

end IssuerStatus

end CertBroker
