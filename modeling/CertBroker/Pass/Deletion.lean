import CertBroker.Cluster.Ledger
import CertBroker.Pass.Session
import CertBroker.TrustChain

namespace CertBroker.CertificateRequest

/-- The leaf of the certificate this request holds. A bundle that cannot be split counts as it is,
and one that cannot be decoded counts as none. -/
def issuedLeaf (r : CertificateRequest) : Option String :=
  match r.currentStatus.certificatePem with
  | .ok (some pem) =>
    let bundle := Utf8.lossy pem
    some ((TrustChain.leafText? (Utf8.encode bundle)).getD bundle)
  | _ => none

/-- Finishes a deletion that needs no PKI, and says whether it is done with. -/
def releaseWithoutIssuer (r : CertificateRequest) : Attempt Bool := do
  if !r.metadata.hasFinalizer then return true
  else if r.issuedLeaf.isSome then return false
  else do
    Ask.put (.removeFinalizer r)
    return true

/-- Revokes the certificate of a request. A refusal by the PKI does not stand in the way. -/
def revoke (r : CertificateRequest) (issuer : Issuer) (settings : Settings) : Attempt Unit := do
  match r.issuedLeaf with
  | none => return ()
  | some leaf => do
    let session ← issuer.openSession settings
    let outcome ← Attempt.lift (Ask.put (.call session (.revoke leaf .unspecified)))
    match outcome with
    | .ok () => return ()
    | .error e => if e.isRejection then return () else throw (.pki e)

/-- Completes a deletion under an issuer. -/
def finishDeletion (r : CertificateRequest) (issuer : Issuer) (settings : Settings) :
    Attempt Unit := do
  if !r.metadata.hasFinalizer then return ()
  else do
    if issuer.spec.revokeCertificates then r.revoke issuer settings
    Ask.put (.removeFinalizer r)

end CertBroker.CertificateRequest
