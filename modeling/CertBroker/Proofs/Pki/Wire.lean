import CertBroker.Pki.Protocol
import CertBroker.Proofs.Cluster.Wire

namespace CertBroker

open Json

namespace Pki

theorem Workflow.legible (depth : Nat) (w : Workflow) : Legible depth ofJson? toJson w :=
  ⟨.string depth w.text, by simp [toJson], by cases w <;> decide⟩

theorem Progress.legible (depth : Nat) (p : Progress) : Legible depth ofJson? toJson p :=
  ⟨.string depth p.text, by simp [toJson], by cases p <;> decide⟩

theorem RevocationReason.legible (depth : Nat) (r : RevocationReason) :
    Legible depth ofJson? toJson r :=
  ⟨.string depth r.text, by simp [toJson], by cases r <;> decide⟩

namespace Label

theorem legible (depth : Nat) (l : Label) : Legible (depth + 1) ofJson? toJson l := by
  have hlabel := (Legible.text depth l.label).required
  have hvalue := (Legible.text depth l.value).required
  have hwrite : l.toJson = .object (membersOf
      [("label", some (.string l.label)), ("value", some (.string l.value))]) := rfl
  refine .record hwrite (fun _ => rfl) rfl (by decide) ?_ ?_
  · simp only [List.forall_mem_cons]
    exact ⟨hlabel.written, hvalue.written, List.forall_mem_nil _⟩
  · simp only [List.map_cons, List.map_nil, hlabel.read, hvalue.read, Option.bind_eq_bind,
      Option.bind_some, Option.pure_def]

end Label

namespace Template

def fields (t : Template) : List (String × Slot) :=
  [("csr", some (.string t.csr)),
    ("labels", slotUnless t.labels.isEmpty (fun ls => .array (ls.map Label.toJson)) t.labels),
    ("owner", t.owner.map .string), ("team", t.team.map .string),
    ("contactEmail", t.contactEmail.map .string)]

theorem toJson_eq (t : Template) : t.toJson = .object (membersOf t.fields) := by
  simp [toJson, fields, membersOf, member_eq, memberList_eq, memberIf_eq]

theorem legible (depth : Nat) (t : Template) : Legible (depth + 3) ofJson? toJson t := by
  have hcsr := (Legible.text (depth + 2) t.csr).required
  have hitems := Legible.items fun l (_ : l ∈ t.labels) => l.legible depth
  have hlabels := hitems.defaulted List.isEmpty_iff.mp
  have howner := Legible.optional fun owner (_ : owner ∈ t.owner) => Legible.text (depth + 2) owner
  have hteam := Legible.optional fun team (_ : team ∈ t.team) => Legible.text (depth + 2) team
  have hemail := Legible.optional fun email (_ : email ∈ t.contactEmail) =>
    Legible.text (depth + 2) email
  refine .record t.toJson_eq (fun _ => rfl) rfl (by decide) ?_ ?_
  · simp only [fields, List.forall_mem_cons]
    exact ⟨hcsr.written, hlabels.written, howner.written, hteam.written, hemail.written,
      List.forall_mem_nil _⟩
  · simp only [fields, List.map_cons, List.map_nil, hcsr.read, hlabels.read, howner.read,
      hteam.read, hemail.read, Option.bind_eq_bind, Option.bind_some, Option.pure_def]

end Template

namespace Submission

def fields (s : Submission) : List (String × Slot) :=
  [("workflow", some s.workflow.toJson), ("profile", s.profile.map .string),
    ("certificateId", s.certificateId.map .string),
    ("certificatePem", s.certificatePem.map .string),
    ("revocationReason", s.revocationReason.map RevocationReason.toJson),
    ("template", s.template.map Template.toJson)]

theorem toJson_eq (s : Submission) : s.toJson = .object (membersOf s.fields) := by
  simp [toJson, fields, membersOf, member_eq, memberIf_eq]

theorem legible (depth : Nat) (s : Submission) : Legible (depth + 4) ofJson? toJson s := by
  have hworkflow := (Workflow.legible (depth + 3) s.workflow).required
  have hprofile := Legible.optional fun profile (_ : profile ∈ s.profile) =>
    Legible.text (depth + 3) profile
  have hid := Legible.optional fun id (_ : id ∈ s.certificateId) => Legible.text (depth + 3) id
  have hpem := Legible.optional fun pem (_ : pem ∈ s.certificatePem) =>
    Legible.text (depth + 3) pem
  have hreason := Legible.optional fun r (_ : r ∈ s.revocationReason) => r.legible (depth + 3)
  have htemplate := Legible.optional fun t (_ : t ∈ s.template) => t.legible depth
  refine .record s.toJson_eq (fun _ => rfl) rfl (by decide) ?_ ?_
  · simp only [fields, List.forall_mem_cons]
    exact ⟨hworkflow.written, hprofile.written, hid.written, hpem.written, hreason.written,
      htemplate.written, List.forall_mem_nil _⟩
  · simp only [fields, List.map_cons, List.map_nil, hworkflow.read, hprofile.read, hid.read,
      hpem.read, hreason.read, htemplate.read, Option.bind_eq_bind, Option.bind_some,
      Option.pure_def]

end Submission

namespace IssuedCertificate

theorem legible (depth : Nat) (c : IssuedCertificate) :
    Legible (depth + 1) ofJson? toJson c := by
  have hid := (Legible.text depth c.id).required
  have hpem := (Legible.text depth c.pem).required
  have hwrite : c.toJson = .object (membersOf
      [("id", some (.string c.id)), ("pem", some (.string c.pem))]) := rfl
  refine .record hwrite (fun _ => rfl) rfl (by decide) ?_ ?_
  · simp only [List.forall_mem_cons]
    exact ⟨hid.written, hpem.written, List.forall_mem_nil _⟩
  · simp only [List.map_cons, List.map_nil, hid.read, hpem.read, Option.bind_eq_bind,
      Option.bind_some, Option.pure_def]

end IssuedCertificate

namespace Request

def fields (r : Request) : List (String × Slot) :=
  [("id", some (.string r.id)), ("workflow", r.workflow.map Workflow.toJson),
    ("status", some r.status.toJson),
    ("certificate", r.certificate.map IssuedCertificate.toJson)]

theorem toJson_eq (r : Request) : r.toJson = .object (membersOf r.fields) := by
  simp [toJson, fields, membersOf, member_eq, memberIf_eq]

theorem legible (depth : Nat) (r : Request) : Legible (depth + 2) ofJson? toJson r := by
  have hid := (Legible.text (depth + 1) r.id).required
  have hworkflow := Legible.optional fun w (_ : w ∈ r.workflow) => w.legible (depth + 1)
  have hstatus := (Progress.legible (depth + 1) r.status).required
  have hcertificate := Legible.optional fun c (_ : c ∈ r.certificate) => c.legible depth
  refine .record r.toJson_eq (fun _ => rfl) rfl (by decide) ?_ ?_
  · simp only [fields, List.forall_mem_cons]
    exact ⟨hid.written, hworkflow.written, hstatus.written, hcertificate.written,
      List.forall_mem_nil _⟩
  · simp only [fields, List.map_cons, List.map_nil, hid.read, hworkflow.read, hstatus.read,
      hcertificate.read, Option.bind_eq_bind, Option.bind_some, Option.pure_def]

end Request

namespace Refusal

theorem legible (depth : Nat) (r : Refusal) : Legible (depth + 1) ofJson? toJson r := by
  have herror := (Legible.text depth r.error).required
  have hmessage := (Legible.text depth r.message).kept ""
  have hwrite : r.toJson = .object (membersOf
      [("error", some (.string r.error)), ("message", some (.string r.message))]) := rfl
  refine .record hwrite (fun _ => rfl) rfl (by decide) ?_ ?_
  · simp only [List.forall_mem_cons]
    exact ⟨herror.written, hmessage.written, List.forall_mem_nil _⟩
  · simp only [List.map_cons, List.map_nil, herror.read, hmessage.read, Option.bind_eq_bind,
      Option.bind_some, Option.pure_def]

end Refusal

end Pki

/-- The times that can be given are those that are read from texts. -/
theorem Time.proper_iff {t : Time} : t.Proper ↔ ∃ s, parse? s = some t :=
  ⟨fun h => ⟨t.text, parse?_text h⟩, fun ⟨_, h⟩ => proper_of_parse? h⟩

example : Time.parse? "2016-12-31T23:59:60.5Z" = some ⟨17166, 86399, 1500000000⟩ := by decide

/-- Statuses, specifications, references, templates and messages are read back from what is written
of them, where times are any that a text can give. -/
theorem records_roundTrip :
    RoundTrips RequestStatus.ofJson? RequestStatus.toJson RequestStatus.Timely ∧
    RoundTrips IssuerSpec.ofJson? IssuerSpec.toJson (fun _ => True) ∧
    RoundTrips IssuerStatus.ofJson? IssuerStatus.toJson IssuerStatus.Timely ∧
    RoundTrips IssuerReference.ofJson? IssuerReference.toJson (fun _ => True) ∧
    RoundTrips AttributeTemplate.ofJson? AttributeTemplate.toJson (fun _ => True) ∧
    RoundTrips Pki.Request.ofJson? Pki.Request.toJson (fun _ => True) ∧
    RoundTrips Pki.Submission.ofJson? Pki.Submission.toJson (fun _ => True) ∧
    RoundTrips Pki.Refusal.ofJson? Pki.Refusal.toJson (fun _ => True) ∧
    ∀ t : Time, t.Proper ↔ ∃ s, Time.parse? s = some t := by
  refine ⟨?_, ?_, ?_, ?_, ?_, ?_, ?_, ?_, fun _ => Time.proper_iff⟩
  · exact roundTrips_of_legible (fun _ h => RequestStatus.legible _ h) fun _ _ =>
      RequestStatus.timely_of_ofJson?
  · exact roundTrips_of_legible (fun s _ => s.legible _) fun _ _ _ => trivial
  · exact roundTrips_of_legible (fun _ h => IssuerStatus.legible _ h) fun _ _ =>
      IssuerStatus.timely_of_ofJson?
  · exact roundTrips_of_legible (fun r _ => r.legible _) fun _ _ _ => trivial
  · exact roundTrips_of_legible (fun t _ => t.legible _) fun _ _ _ => trivial
  · exact roundTrips_of_legible (fun r _ => r.legible _) fun _ _ _ => trivial
  · exact roundTrips_of_legible (fun s _ => s.legible _) fun _ _ _ => trivial
  · exact roundTrips_of_legible (fun r _ => r.legible _) fun _ _ _ => trivial

end CertBroker
