import CertBroker.Cluster.Condition
import CertBroker.Cluster.Names
import CertBroker.Cluster.Reference
import CertBroker.Cluster.Resource

namespace CertBroker

structure AttributeTemplate where
  labels : Dict String := .empty
  owner : Option String := none
  team : Option String := none
  contactEmail : Option String := none
deriving DecidableEq

/-- The DNS server on which subject names have to resolve. -/
structure DnsChecker where
  server : String
deriving DecidableEq

/-- How to reach the PKI and which attributes to send. -/
structure IssuerSpec where
  url : String
  proxy : Option String := none
  profile : String
  authSecretName : String
  caBundle : Option String := none
  skipTLSVerify : Bool := false
  revokeCertificates : Bool := false
  defaultTemplate : Option AttributeTemplate := none
  overrideTemplate : Option AttributeTemplate := none
  dnsChecker : Option DnsChecker := none
deriving DecidableEq

/-- A condition of an issuer; an unset reason or message is empty. -/
structure IssuerCondition where
  type : String
  status : ConditionStatus
  lastTransitionTime : Option Time
  reason : String
  message : String
deriving DecidableEq

structure IssuerStatus where
  conditions : List IssuerCondition := []
deriving DecidableEq

structure Issuer where
  scope : IssuerScope
  metadata : Metadata
  spec : IssuerSpec
  status : Option IssuerStatus := none
deriving DecidableEq

open Json

namespace AttributeTemplate

def ofJson? (j : Json) : Option AttributeTemplate := do
  match ← record? ["labels", "owner", "team", "contactEmail"] j with
  | [labels, owner, team, contactEmail] =>
    return {
      labels := ← defaulted .empty (dict? text?) labels
      owner := ← optional text? owner
      team := ← optional text? team
      contactEmail := ← optional text? contactEmail }
  | _ => none

def toJson (t : AttributeTemplate) : Json :=
  .object ((if t.labels.isEmpty then [] else member "labels" (ofTexts t.labels))
    ++ memberIf "owner" .string t.owner
    ++ memberIf "team" .string t.team
    ++ memberIf "contactEmail" .string t.contactEmail)

end AttributeTemplate

namespace DnsChecker

def ofJson? (j : Json) : Option DnsChecker := do
  match ← record? ["server"] j with
  | [server] => return { server := ← required text? server }
  | _ => none

def toJson (d : DnsChecker) : Json := .object (member "server" (.string d.server))

end DnsChecker

namespace IssuerSpec

def ofJson? (j : Json) : Option IssuerSpec := do
  match ← record? ["url", "proxy", "profile", "authSecretName", "caBundle", "skipTLSVerify",
      "revokeCertificates", "defaultTemplate", "overrideTemplate", "dnsChecker"] j with
  | [url, proxy, profile, authSecretName, caBundle, skipTLSVerify, revokeCertificates,
      defaultTemplate, overrideTemplate, dnsChecker] =>
    return {
      url := ← required text? url
      proxy := ← optional text? proxy
      profile := ← required text? profile
      authSecretName := ← required text? authSecretName
      caBundle := ← optional text? caBundle
      skipTLSVerify := ← defaulted false flag? skipTLSVerify
      revokeCertificates := ← defaulted false flag? revokeCertificates
      defaultTemplate := ← optional AttributeTemplate.ofJson? defaultTemplate
      overrideTemplate := ← optional AttributeTemplate.ofJson? overrideTemplate
      dnsChecker := ← optional DnsChecker.ofJson? dnsChecker }
  | _ => none

def toJson (s : IssuerSpec) : Json :=
  .object (member "url" (.string s.url)
    ++ memberIf "proxy" .string s.proxy
    ++ member "profile" (.string s.profile)
    ++ member "authSecretName" (.string s.authSecretName)
    ++ memberIf "caBundle" .string s.caBundle
    ++ member "skipTLSVerify" (.bool s.skipTLSVerify)
    ++ member "revokeCertificates" (.bool s.revokeCertificates)
    ++ memberIf "defaultTemplate" AttributeTemplate.toJson s.defaultTemplate
    ++ memberIf "overrideTemplate" AttributeTemplate.toJson s.overrideTemplate
    ++ memberIf "dnsChecker" DnsChecker.toJson s.dnsChecker)

end IssuerSpec

namespace IssuerCondition

def ofJson? (j : Json) : Option IssuerCondition := do
  match ← record? ["type", "status", "lastTransitionTime", "reason", "message"] j with
  | [type, status, lastTransitionTime, reason, message] =>
    return {
      type := ← required text? type
      status := ← required ConditionStatus.ofJson? status
      lastTransitionTime := ← optional Time.ofJson? lastTransitionTime
      reason := ← defaulted "" text? reason
      message := ← defaulted "" text? message }
  | _ => none

def toJson (c : IssuerCondition) : Json :=
  .object (member "type" (.string c.type)
    ++ member "status" c.status.toJson
    ++ memberIf "lastTransitionTime" Time.toJson c.lastTransitionTime
    ++ (if c.reason.isEmpty then [] else member "reason" (.string c.reason))
    ++ if c.message.isEmpty then [] else member "message" (.string c.message))

end IssuerCondition

namespace IssuerStatus

def readyCondition (s : IssuerStatus) : Option IssuerCondition :=
  s.conditions.find? (fun c => c.type = ConditionType.ready)

def isReady (s : IssuerStatus) : Bool := s.readyCondition.any (fun c => c.status == .yes)

/-- Sets the first Ready condition, or adds one at the end. The transition time moves only when
the status changes. -/
def setReady (status : ConditionStatus) (reason message : String) (now : Time) :
    List IssuerCondition → List IssuerCondition
  | [] => [⟨ConditionType.ready, status, some now, reason, message⟩]
  | c :: rest =>
    if c.type = ConditionType.ready then
      { c with
        status
        reason
        message
        lastTransitionTime := if c.status = status then c.lastTransitionTime else some now } :: rest
    else c :: setReady status reason message now rest

def setReadyCondition (s : IssuerStatus) (status : ConditionStatus) (reason message : String)
    (now : Time) : IssuerStatus :=
  ⟨setReady status reason message now s.conditions⟩

def ofJson? (j : Json) : Option IssuerStatus := do
  match ← record? ["conditions"] j with
  | [conditions] =>
    return { conditions := ← defaulted [] (items? IssuerCondition.ofJson?) conditions }
  | _ => none

def toJson (s : IssuerStatus) : Json :=
  .object (memberList "conditions" IssuerCondition.toJson s.conditions)

end IssuerStatus

namespace Issuer

def apiVersion : String := "pki.microscaler.io/v1alpha1"

def kind (i : Issuer) : String := i.scope.kind

def ofJson? (scope : IssuerScope) (j : Json) : Option Issuer := do
  let (metadata, spec, status) ← Resource.frame? IssuerSpec.ofJson? IssuerStatus.ofJson? j
  return { scope, metadata, spec, status }

/-- Reads an issuer of the scope its kind names; one that names no kind serves its namespace. -/
def ofJsonByKind? (j : Json) : Option Issuer :=
  ofJson? (if (j.get? "kind").bind text? = some (IssuerScope.kind .cluster) then .cluster
    else .namespaced) j

def toJson (i : Issuer) : Json :=
  Resource.frame apiVersion i.kind i.metadata i.spec.toJson (i.status.map IssuerStatus.toJson)

def name (i : Issuer) : String := i.metadata.nameText

/-- A cluster issuer has no namespace. -/
def ns (i : Issuer) : Option String :=
  match i.scope with
  | .namespaced => i.metadata.ns
  | .cluster => none

def currentStatus (i : Issuer) : IssuerStatus := i.status.getD {}

def isReady (i : Issuer) : Bool := i.currentStatus.isReady

/-- The namespace of the Secret with the credentials. -/
def secretNamespace (i : Issuer) (clusterNamespace : String) : String :=
  i.scope.secretNamespace i.ns clusterNamespace

end Issuer

end CertBroker
