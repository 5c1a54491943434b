import CertBroker.Base64
import CertBroker.Cluster.Condition
import CertBroker.Cluster.Reference
import CertBroker.Cluster.Resource

namespace CertBroker

/-- What is asked for. The signing request is base64 of PEM. -/
structure RequestSpec where
  request : String
  issuerRef : IssuerReference
  duration : Option String := none
  isCA : Bool := false
deriving DecidableEq

/-- What came of it. Certificate and CA are base64 of PEM. -/
structure RequestStatus where
  conditions : List Condition := []
  certificate : Option String := none
  ca : Option String := none
  failureTime : Option Time := none
deriving DecidableEq, Inhabited

structure CertificateRequest where
  metadata : Metadata
  spec : RequestSpec
  status : Option RequestStatus := none
deriving DecidableEq

open Json

namespace RequestSpec

/-- The signing request as PEM. -/
def csrPem (s : RequestSpec) : Except Base64.Fault Bytes := Base64.decodeText s.request

def ofJson? (j : Json) : Option RequestSpec := do
  match ← record? ["request", "issuerRef", "duration", "isCA"] j with
  | [request, issuerRef, duration, isCA] =>
    return {
      request := ← required text? request
      issuerRef := ← required IssuerReference.ofJson? issuerRef
      duration := ← optional text? duration
      isCA := ← defaulted false flag? isCA }
  | _ => none

def toJson (s : RequestSpec) : Json :=
  .object (member "request" (.string s.request)
    ++ member "issuerRef" s.issuerRef.toJson
    ++ memberIf "duration" .string s.duration
    ++ if s.isCA then member "isCA" (.bool true) else [])

end RequestSpec

namespace RequestStatus

def condition (s : RequestStatus) (type : String) : Option Condition :=
  Condition.find type s.conditions

def hasTrue (s : RequestStatus) (type : String) : Bool := (s.condition type).any Condition.isTrue

/-- Whether Ready has this status and reason. -/
def readyIs (s : RequestStatus) (status : ConditionStatus) (reason : String) : Bool :=
  (s.condition ConditionType.ready).any fun c => c.status == status && c.reasonText == reason

def setCondition (s : RequestStatus) (type : String) (status : ConditionStatus)
    (reason message : String) (now : Time) : RequestStatus :=
  { s with conditions := Condition.set type status reason message now s.conditions }

/-- The first failure time stays. -/
def markFailedOnce (s : RequestStatus) (now : Time) : RequestStatus :=
  { s with failureTime := some (s.failureTime.getD now) }

def setIssued (s : RequestStatus) (certificate : Bytes) (ca : Option Bytes) : RequestStatus :=
  { s with certificate := some (Base64.encode certificate), ca := ca.map Base64.encode }

/-- The issued certificate as PEM; an empty field counts as none. -/
def certificatePem (s : RequestStatus) : Except Base64.Fault (Option Bytes) :=
  match s.certificate with
  | some text => if text.isEmpty then .ok none else (Base64.decodeText text).map some
  | none => .ok none

def ofJson? (j : Json) : Option RequestStatus := do
  match ← record? ["conditions", "certificate", "ca", "failureTime"] j with
  | [conditions, certificate, ca, failureTime] =>
    return {
      conditions := ← defaulted [] (items? Condition.ofJson?) conditions
      certificate := ← optional text? certificate
      ca := ← optional text? ca
      failureTime := ← optional Time.ofJson? failureTime }
  | _ => none

def toJson (s : RequestStatus) : Json :=
  .object (memberList "conditions" Condition.toJson s.conditions
    ++ memberIf "certificate" .string s.certificate
    ++ memberIf "ca" .string s.ca
    ++ memberIf "failureTime" Time.toJson s.failureTime)

end RequestStatus

namespace CertificateRequest

def apiVersion : String := "cert-manager.io/v1"

def kind : String := "CertificateRequest"

def ofJson? (j : Json) : Option CertificateRequest := do
  let (metadata, spec, status) ← Resource.frame? RequestSpec.ofJson? RequestStatus.ofJson? j
  return { metadata, spec, status }

def toJson (r : CertificateRequest) : Json :=
  Resource.frame apiVersion kind r.metadata r.spec.toJson (r.status.map RequestStatus.toJson)

/-- The status, an empty one if there is none yet. -/
def currentStatus (r : CertificateRequest) : RequestStatus := r.status.getD {}

def updateStatus (r : CertificateRequest) (f : RequestStatus → RequestStatus) :
    CertificateRequest :=
  { r with status := some (f r.currentStatus) }

def isDeleted (r : CertificateRequest) : Bool := r.metadata.deletionTimestamp.isSome

end CertificateRequest

end CertBroker
