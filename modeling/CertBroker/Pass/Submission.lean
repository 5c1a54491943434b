import CertBroker.Cluster.Ledger
import CertBroker.Pass.Attributes
import CertBroker.Pass.NameCheck
import CertBroker.Pass.Session
import CertBroker.Pass.Verdict

namespace CertBroker

/-- The reasons of Issuing for which a submission renews. -/
def renewalReasons : List String := ["ManuallyTriggered", "Renewing", "Expired"]

namespace Certificate

/-- The certificate to renew, while this Certificate is issued anew and has a known one. -/
def renewalTarget (c : Certificate) : Option String :=
  match c.status.bind CertificateStatus.issuingReason with
  | some reason => if renewalReasons.contains reason then c.metadata.lastCertificateId? else none
  | none => none

/-- The name of the first Ingress that owns this Certificate. -/
def owningIngress (c : Certificate) : Option String :=
  let owners := c.metadata.ownerReferences.getD []
  (owners.find? fun o => o.apiVersion == "networking.k8s.io/v1" && o.kind == "Ingress").map (·.name)

end Certificate

namespace CertificateRequest

/-- The signing request, which has to be a text. -/
def csrText (r : CertificateRequest) : Except Failure String :=
  match r.spec.csrPem with
  | .error fault => .error (.invalidCsr fault.message)
  | .ok pem => (Utf8.decode pem).mapError fun fault => .invalidCsr fault.message

/-- The Certificate this request was made for, which has to exist if it is named. -/
def parent (r : CertificateRequest) : Attempt (Option Certificate) := do
  match r.metadata.parentName? with
  | none => return none
  | some name => do
    let ns := r.metadata.nsText
    match ← Ask.certificate ns name with
    | some parent => return some parent
    | none => throw (.missingParent (ns ++ "/" ++ name))

/-- The annotations of the Ingress that owns the parent. -/
def ingressAnnotations (r : CertificateRequest) (parent : Option Certificate) :
    Attempt (Option (Dict String)) := do
  match parent.bind Certificate.owningIngress with
  | none => return none
  | some name => do
    let ingress ← Ask.ingress r.metadata.nsText name
    return ingress.bind (·.metadata.annotations)

/-- The enrollment of a request: the issuer's profile and the attributes of all layers. -/
def enrollment (spec : IssuerSpec) (parent : Option Certificate)
    (ingress : Option (Dict String)) (csr : String) : Pki.Enrollment :=
  (Attributes.resolve spec ingress (parent.bind (·.metadata.annotations))).toEnrollment
    spec.profile csr

/-- Sends the submission and answers the PKI's id of it. -/
def send (r : CertificateRequest) (issuer : Issuer) (settings : Settings) : Attempt String := do
  let csr ← Attempt.ofExcept r.csrText
  match issuer.spec.dnsChecker with
  | some checker => NameCheck.run checker.server (Utf8.encode csr) settings.dnsCheckTimeout
  | none => pure ()
  let parent ← r.parent
  let session ← issuer.openSession settings
  match parent.bind Certificate.renewalTarget with
  | some id => session.call (.renew id csr)
  | none => do
    let ingress ← r.ingressAnnotations parent
    session.call (.enroll (enrollment issuer.spec parent ingress csr))

/-- The request after a submission that went well. -/
def submitted (r : CertificateRequest) (id : String) (now : Time) : CertificateRequest :=
  let r := { r with metadata := (r.metadata.recordRequestId id).1 }
  r.updateStatus fun s =>
    s.setCondition ConditionType.ready .no Reason.pending Message.submitted now

/-- The request after a submission that failed; a failure for good leaves its mark. -/
def notSubmitted (r : CertificateRequest) (f : Failure) (now : Time) : CertificateRequest :=
  if f.isFinal then r.updateStatus fun s => s.applyInvalidRequest f now else r

/-- Submits a request. The request changes whether that works or not. -/
def submit (r : CertificateRequest) (issuer : Issuer) (settings : Settings) :
    Pass (CertificateRequest × Except Failure Action) := do
  let sent ← (r.send issuer settings).result
  let now ← Ask.time
  match sent with
  | .ok id => return (r.submitted id now, .ok (.requeue settings.pendingPollInterval))
  | .error f => return (r.notSubmitted f now, .error f)

end CertificateRequest

end CertBroker
