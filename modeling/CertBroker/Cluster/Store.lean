import CertBroker.Cluster.Api
import CertBroker.Cluster.Certificate
import CertBroker.Cluster.CertificateRequest
import CertBroker.Cluster.Ingress
import CertBroker.Cluster.Issuer
import CertBroker.Cluster.Ledger

namespace CertBroker.Store

open Api

def requestKind : Kind := ⟨"cert-manager.io", "v1", "certificaterequests"⟩

def certificateKind : Kind := ⟨"cert-manager.io", "v1", "certificates"⟩

def secretKind : Kind := ⟨"", "v1", "secrets"⟩

def ingressKind : Kind := ⟨"networking.k8s.io", "v1", "ingresses"⟩

def issuerKind : IssuerScope → Kind
  | .namespaced => ⟨groupName, "v1alpha1", "issuers"⟩
  | .cluster => ⟨groupName, "v1alpha1", "clusterissuers"⟩

def issuerAddress (scope : IssuerScope) (ns name : String) : Address :=
  ⟨issuerKind scope, scope.issuerNamespace ns, name⟩

def addressOf (kind : Kind) (m : Metadata) : Address := ⟨kind, some m.nsText, m.nameText⟩

/-- Takes an answer that the object changed meanwhile for a conflict. -/
def asConflict : Failure → Failure
  | .api answer => if answer.code = 409 then .conflict answer.message else .api answer
  | f => f

/-- A read in which some error answers mean that there is no such object. -/
def findUnless (isMissing : ApiStatus → Bool) : Except Failure α → Except Failure (Option α)
  | .ok found => .ok (some found)
  | .error (.api answer) => if isMissing answer then .ok none else .error (.api answer)
  | .error f => .error f

def find (read : Json → Option α) (a : Address) : Talk (Option α) :=
  ExceptT.mk do
    return (findUnless (fun answer => answer.code == 404) (← (get read a).run)).mapError asConflict

/-- Reads an issuer, if the answer does not give the reason `NotFound`. -/
def issuer (scope : IssuerScope) (ns name : String) : Talk (Option Issuer) :=
  ExceptT.mk do
    return findUnless (fun answer => answer.reason == "NotFound")
      (← (get (Issuer.ofJson? scope) (issuerAddress scope ns name)).run)

def secret (ns name : String) : Talk (Option Secret) :=
  find Secret.ofJson? ⟨secretKind, some ns, name⟩

def certificate (ns name : String) : Talk (Option Certificate) :=
  find Certificate.ofJson? ⟨certificateKind, some ns, name⟩

def ingress (ns name : String) : Talk (Option Ingress) :=
  find Ingress.ofJson? ⟨ingressKind, some ns, name⟩

/-- Merges a patch into an object. -/
def write (read : Json → Option α) (a : Address) (part : String) (change : Json) : Talk α :=
  ExceptT.mk do return (← (patch read a part change).run).mapError asConflict

/-- The version a write is based on, and further members of the metadata. -/
def metadataChange (version : Option String) (changes : List (String × Json)) :
    List (String × Json) :=
  Json.member "metadata" (.object (("resourceVersion", version.elim .null .string) :: changes))

def annotationsChange (annotations : Option (Dict String)) : List (String × Json) :=
  Json.member "annotations" (annotations.elim .null Json.ofTexts)

def finalizersChange (finalizers : List String) : List (String × Json) :=
  Json.member "finalizers" (.array (finalizers.map .string))

/-- Writes the annotations of a request, and answers its new version. -/
def writeAnnotations (r : CertificateRequest) : Talk (Option String) := do
  let written ← write CertificateRequest.ofJson? (addressOf requestKind r.metadata) ""
    (.object (metadataChange r.metadata.resourceVersion
      (annotationsChange r.metadata.annotations)))
  return written.metadata.resourceVersion

/-- Writes the status of a request that has the given version. -/
def writeStatus (r : CertificateRequest) (version : Option String) : Talk Unit := do
  let _ ← write CertificateRequest.ofJson? (addressOf requestKind r.metadata) statusPart
    (.object (metadataChange version []
      ++ Json.member "status" (r.status.elim .null RequestStatus.toJson)))

/-- Writes the annotations if they changed, and then the status if it changed. The status is
written to the version that the first write answered. -/
def storeRequest (before after : CertificateRequest) : Talk Unit := do
  let version ←
    if before.metadata.annotations = after.metadata.annotations then
      pure after.metadata.resourceVersion
    else writeAnnotations after
  if before.status = after.status then pure () else writeStatus after version

/-- Writes the finalizers of a request with ours, or without it. -/
def writeFinalizer (r : CertificateRequest) (present : Bool) : Talk CertificateRequest :=
  write CertificateRequest.ofJson? (addressOf requestKind r.metadata) ""
    (.object (metadataChange r.metadata.resourceVersion
      (finalizersChange (r.metadata.finalizersWith present))))

def addFinalizer (r : CertificateRequest) : Talk CertificateRequest := writeFinalizer r true

def removeFinalizer (r : CertificateRequest) : Talk Unit := do
  let _ ← writeFinalizer r false

def storeAnnotations (c : Certificate) : Talk Unit := do
  let _ ← write Certificate.ofJson? (addressOf certificateKind c.metadata) ""
    (.object (metadataChange c.metadata.resourceVersion
      (annotationsChange c.metadata.annotations)))

/-- Writes the status of an issuer, to whatever version it has by then. -/
def storeIssuerStatus (i : Issuer) : Talk Unit := do
  let _ ← write (Issuer.ofJson? i.scope)
    (issuerAddress i.scope i.metadata.nsText i.metadata.nameText) statusPart
    (.object (Json.member "status" i.currentStatus.toJson))

theorem storeRequest_unchanged {before after : CertificateRequest}
    (annotations : before.metadata.annotations = after.metadata.annotations)
    (status : before.status = after.status) : storeRequest before after = pure () := by
  simp [storeRequest, annotations, status]

end CertBroker.Store
