import CertBroker.Json.Record
import CertBroker.Pki.Error

namespace CertBroker.Pki

open Json

/-- How far a request has come on the PKI's side. -/
inductive Progress where
  | pending
  | approved
  | completed
  | denied
  | canceled
deriving DecidableEq, Repr

inductive Workflow where
  | enroll
  | renew
  | revoke
deriving DecidableEq, Repr

inductive RevocationReason where
  | unspecified
  | keyCompromise
  | superseded
  | cessationOfOperation
deriving DecidableEq, Repr

/-- What an enrollment asks for. -/
structure Enrollment where
  profile : String
  csr : String
  labels : Dict String := .empty
  owner : Option String := none
  team : Option String := none
  contactEmail : Option String := none
deriving DecidableEq

structure Label where
  label : String
  value : String
deriving DecidableEq

/-- The certificate wanted by an enrollment or renewal. -/
structure Template where
  csr : String
  labels : List Label := []
  owner : Option String := none
  team : Option String := none
  contactEmail : Option String := none
deriving DecidableEq

/-- The body of a submission. -/
structure Submission where
  workflow : Workflow
  profile : Option String := none
  certificateId : Option String := none
  certificatePem : Option String := none
  revocationReason : Option RevocationReason := none
  template : Option Template := none
deriving DecidableEq

/-- An issued certificate: its id, and its PEM with any chain after it. -/
structure IssuedCertificate where
  id : String
  pem : String
deriving DecidableEq

/-- A request as the PKI reports it. -/
structure Request where
  id : String
  workflow : Option Workflow := none
  status : Progress
  certificate : Option IssuedCertificate := none
deriving DecidableEq

structure Refusal where
  error : String
  message : String := ""
deriving DecidableEq

inductive Call where
  | checkHealth
  | enroll (request : Enrollment)
  | renew (certificateId csr : String)
  | poll (id : String)
  | revoke (certificate : String) (reason : RevocationReason)
deriving DecidableEq

namespace Progress

def text : Progress → String
  | .pending => "pending"
  | .approved => "approved"
  | .completed => "completed"
  | .denied => "denied"
  | .canceled => "canceled"

def all : List Progress := [.pending, .approved, .completed, .denied, .canceled]

def ofJson? (j : Json) : Option Progress := j.name?.bind fun s => all.find? (fun p => p.text = s)

def toJson (p : Progress) : Json := .string p.text

end Progress

namespace Workflow

def text : Workflow → String
  | .enroll => "enroll"
  | .renew => "renew"
  | .revoke => "revoke"

def all : List Workflow := [.enroll, .renew, .revoke]

def ofJson? (j : Json) : Option Workflow := j.name?.bind fun s => all.find? (fun w => w.text = s)

def toJson (w : Workflow) : Json := .string w.text

end Workflow

namespace RevocationReason

def text : RevocationReason → String
  | .unspecified => "UNSPECIFIED"
  | .keyCompromise => "KEY_COMPROMISE"
  | .superseded => "SUPERSEDED"
  | .cessationOfOperation => "CESSATION_OF_OPERATION"

def all : List RevocationReason :=
  [.unspecified, .keyCompromise, .superseded, .cessationOfOperation]

def ofJson? (j : Json) : Option RevocationReason :=
  j.name?.bind fun s => all.find? (fun r => r.text = s)

def toJson (r : RevocationReason) : Json := .string r.text

end RevocationReason

namespace Label

def ofJson? (j : Json) : Option Label := do
  match ← record? ["label", "value"] j with
  | [label, value] => return { label := ← required text? label, value := ← required text? value }
  | _ => none

def toJson (l : Label) : Json :=
  .object (member "label" (.string l.label) ++ member "value" (.string l.value))

end Label

namespace Template

def ofJson? (j : Json) : Option Template := do
  match ← record? ["csr", "labels", "owner", "team", "contactEmail"] j with
  | [csr, labels, owner, team, contactEmail] =>
    return {
      csr := ← required text? csr
      labels := ← defaulted [] (items? Label.ofJson?) labels
      owner := ← optional text? owner
      team := ← optional text? team
      contactEmail := ← optional text? contactEmail }
  | _ => none

def toJson (t : Template) : Json :=
  .object (member "csr" (.string t.csr)
    ++ memberList "labels" Label.toJson t.labels
    ++ memberIf "owner" .string t.owner
    ++ memberIf "team" .string t.team
    ++ memberIf "contactEmail" .string t.contactEmail)

end Template

namespace Submission

def enroll (e : Enrollment) : Submission where
  workflow := .enroll
  profile := some e.profile
  template := some {
    csr := e.csr
    labels := e.labels.entries.map fun l => ⟨l.1, l.2⟩
    owner := e.owner
    team := e.team
    contactEmail := e.contactEmail }

def renew (certificateId csr : String) : Submission where
  workflow := .renew
  certificateId := some certificateId
  template := some { csr }

def revoke (certificate : String) (reason : RevocationReason) : Submission where
  workflow := .revoke
  certificatePem := some certificate
  revocationReason := some reason

def ofJson? (j : Json) : Option Submission := do
  match ← record? ["workflow", "profile", "certificateId", "certificatePem", "revocationReason",
      "template"] j with
  | [workflow, profile, certificateId, certificatePem, revocationReason, template] =>
    return {
      workflow := ← required Workflow.ofJson? workflow
      profile := ← optional text? profile
      certificateId := ← optional text? certificateId
      certificatePem := ← optional text? certificatePem
      revocationReason := ← optional RevocationReason.ofJson? revocationReason
      template := ← optional Template.ofJson? template }
  | _ => none

def toJson (s : Submission) : Json :=
  .object (member "workflow" s.workflow.toJson
    ++ memberIf "profile" .string s.profile
    ++ memberIf "certificateId" .string s.certificateId
    ++ memberIf "certificatePem" .string s.certificatePem
    ++ memberIf "revocationReason" RevocationReason.toJson s.revocationReason
    ++ memberIf "template" Template.toJson s.template)

end Submission

namespace IssuedCertificate

def ofJson? (j : Json) : Option IssuedCertificate := do
  match ← record? ["id", "pem"] j with
  | [id, pem] => return { id := ← required text? id, pem := ← required text? pem }
  | _ => none

def toJson (c : IssuedCertificate) : Json :=
  .object (member "id" (.string c.id) ++ member "pem" (.string c.pem))

end IssuedCertificate

namespace Request

def ofJson? (j : Json) : Option Request := do
  match ← record? ["id", "workflow", "status", "certificate"] j with
  | [id, workflow, status, certificate] =>
    return {
      id := ← required text? id
      workflow := ← optional Workflow.ofJson? workflow
      status := ← required Progress.ofJson? status
      certificate := ← optional IssuedCertificate.ofJson? certificate }
  | _ => none

def toJson (r : Request) : Json :=
  .object (member "id" (.string r.id)
    ++ memberIf "workflow" Workflow.toJson r.workflow
    ++ member "status" r.status.toJson
    ++ memberIf "certificate" IssuedCertificate.toJson r.certificate)

end Request

namespace Refusal

def ofJson? (j : Json) : Option Refusal := do
  match ← record? ["error", "message"] j with
  | [error, message] =>
    return { error := ← required text? error, message := ← defaulted "" text? message }
  | _ => none

def toJson (r : Refusal) : Json :=
  .object (member "error" (.string r.error) ++ member "message" (.string r.message))

end Refusal

namespace Call

/-- The body of a call that submits something. -/
def submission? : Call → Option Submission
  | .enroll request => some (.enroll request)
  | .renew certificateId csr => some (.renew certificateId csr)
  | .revoke certificate reason => some (.revoke certificate reason)
  | _ => none

end Call

end CertBroker.Pki
