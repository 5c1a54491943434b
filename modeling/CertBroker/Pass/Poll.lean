import CertBroker.Cluster.Ledger
import CertBroker.Pass.Session
import CertBroker.Pass.Verdict
import CertBroker.TrustChain

namespace CertBroker

/-- Asks the PKI about a submitted request. -/
def Issuer.inquire (i : Issuer) (settings : Settings) (id : String) : Attempt Pki.Request := do
  let session ← i.openSession settings
  session.call (.poll id)

namespace CertificateRequest

/-- The request with the certificate of the PKI. -/
def accept (r : CertificateRequest) (c : Pki.IssuedCertificate) (now : Time) :
    CertificateRequest :=
  let chain := TrustChain.buildOrLeaf c.pem
  let r := r.updateStatus fun s =>
    ((s.setCondition ConditionType.approved .yes Reason.pki Message.approved now).setIssued
      (Utf8.encode chain.certificate) (chain.ca.map Utf8.encode)).setCondition
      ConditionType.ready .yes Reason.issued Message.signed now
  { r with metadata := (r.metadata.recordCertificateId c.id).1 }

/-- The request after the PKI has refused it. -/
def refuse (r : CertificateRequest) (now : Time) : CertificateRequest :=
  r.updateStatus fun s =>
    s.setCondition ConditionType.denied .yes Reason.pki Message.pkiDenied now

/-- What the PKI's answer about a request means for it. -/
def progress (r : CertificateRequest) (id : String) (settings : Settings) (answer : Pki.Request)
    (now : Time) : CertificateRequest × Except Failure Action :=
  match answer.status with
  | .pending => (r, .ok (.requeue settings.pendingPollInterval))
  | .approved => (r, .ok (.requeue settings.pendingPollInterval))
  | .denied => (r.refuse now, .ok .awaitChange)
  | .canceled => (r.refuse now, .ok .awaitChange)
  | .completed =>
    match answer.certificate with
    | some c => (r.accept c now, .ok .awaitChange)
    | none =>
      (r, .error (.pki (.invalidResponse
        ("request " ++ id ++ " completed without a certificate"))))

def poll (r : CertificateRequest) (id : String) (issuer : Issuer) (settings : Settings) :
    Pass (CertificateRequest × Except Failure Action) := do
  match ← (issuer.inquire settings id).result with
  | .error f => return (r, .error f)
  | .ok answer => return r.progress id settings answer (← Ask.time)

end CertificateRequest

end CertBroker
