import CertBroker.Cluster.Condition
import CertBroker.Cluster.Names
import CertBroker.Cluster.Reference
import CertBroker.Cluster.Resource

namespace CertBroker

structure CertificateSpec where
  secretName : String
  issuerRef : IssuerReference
  commonName : Option String := none
  dnsNames : List String := []
deriving DecidableEq

structure CertificateStatus where
  conditions : List Condition := []
deriving DecidableEq

structure Certificate where
  metadata : Metadata
  spec : CertificateSpec
  status : Option CertificateStatus := none
deriving DecidableEq

open Json

namespace CertificateSpec

def ofJson? (j : Json) : Option CertificateSpec := do
  match ← record? ["secretName", "issuerRef", "commonName", "dnsNames"] j with
  | [secretName, issuerRef, commonName, dnsNames] =>
    return {
      secretName := ← required text? secretName
      issuerRef := ← required IssuerReference.ofJson? issuerRef
      commonName := ← optional text? commonName
      dnsNames := ← defaulted [] (items? text?) dnsNames }
  | _ => none

def toJson (s : CertificateSpec) : Json :=
  .object (member "secretName" (.string s.secretName)
    ++ member "issuerRef" s.issuerRef.toJson
    ++ memberIf "commonName" .string s.commonName
    ++ memberList "dnsNames" .string s.dnsNames)

end CertificateSpec

namespace CertificateStatus

def condition (s : CertificateStatus) (type : String) : Option Condition :=
  Condition.find type s.conditions

/-- The reason of Issuing while it holds. -/
def issuingReason (s : CertificateStatus) : Option String :=
  match s.condition ConditionType.issuing with
  | some c => if c.isTrue then some c.reasonText else none
  | none => none

def ofJson? (j : Json) : Option CertificateStatus := do
  match ← record? ["conditions"] j with
  | [conditions] => return { conditions := ← defaulted [] (items? Condition.ofJson?) conditions }
  | _ => none

def toJson (s : CertificateStatus) : Json :=
  .object (memberList "conditions" Condition.toJson s.conditions)

end CertificateStatus

namespace Certificate

def apiVersion : String := "cert-manager.io/v1"

def kind : String := "Certificate"

def ofJson? (j : Json) : Option Certificate := do
  let (metadata, spec, status) ← Resource.frame? CertificateSpec.ofJson? CertificateStatus.ofJson? j
  return { metadata, spec, status }

def toJson (c : Certificate) : Json :=
  Resource.frame apiVersion kind c.metadata c.spec.toJson (c.status.map CertificateStatus.toJson)

end Certificate

end CertBroker
