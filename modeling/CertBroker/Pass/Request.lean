import CertBroker.Pass.Deletion
import CertBroker.Pass.Outcome
import CertBroker.Pass.Poll
import CertBroker.Pass.Submission

namespace CertBroker.CertificateRequest

/-- Moves a request on, as far as it can be told now. -/
def advance (r : CertificateRequest) (issuer : Issuer) (settings : Settings) :
    Pass (CertificateRequest × Except Failure Action) := do
  let status := r.currentStatus
  if status.isDeniedByApprover then do
    let now ← Ask.time
    return (r.updateStatus fun s => s.applyLocalDenial now, .ok .awaitChange)
  else match r.metadata.requestId? with
    | some id => r.poll id issuer settings
    | none =>
      if status.hasTrue ConditionType.approved then r.submit issuer settings
      else return (r, .ok .awaitChange)

def findIssuer (r : CertificateRequest) : Attempt Issuer := do
  let reference := r.spec.issuerRef
  let scope ← Attempt.ofExcept (reference.scope.mapError Failure.issuerRef)
  match ← Ask.issuer scope r.metadata.nsText reference.name with
  | some issuer => return issuer
  | none => throw (.issuerNotFound (scope.kind ++ " " ++ reference.name))

/-- The request with the finalizer, where the issuer asks for one. -/
def guarded (r : CertificateRequest) (issuer : Issuer) : Attempt CertificateRequest := do
  if issuer.spec.revokeCertificates && !r.metadata.hasFinalizer then Ask.put (.addFinalizer r)
  else return r

/-- A pass over a request that is not deleted, under an issuer that is ready. -/
def proceed (r : CertificateRequest) (issuer : Issuer) (settings : Settings) :
    Attempt Action := do
  let r ← r.guarded issuer
  let r := { r with status := some r.currentStatus }
  match r.currentStatus.terminal? with
  | some terminal => do
    if terminal = .issued then r.linkParent
    return .awaitChange
  | none => do
    let (after, outcome) ← Attempt.lift (r.advance issuer settings)
    persistOutcome r after outcome

/-- A pass over a request for this group that may need its issuer. -/
def underIssuer (r : CertificateRequest) (settings : Settings) : Attempt Action := do
  let issuer ← r.findIssuer
  if !issuer.isReady then return .requeue settings.healthCheckInterval
  else if r.isDeleted then do
    r.finishDeletion issuer settings
    return .awaitChange
  else r.proceed issuer settings

/-- One pass over a request. The annotation with the PKI's request id is the only mark of a
submission, and every pass reads it anew. -/
def reconcile (r : CertificateRequest) (settings : Settings) : Attempt Action := do
  if !r.spec.issuerRef.targetsThisGroup then return .awaitChange
  else if r.isDeleted then do
    if ← r.releaseWithoutIssuer then return .awaitChange else r.underIssuer settings
  else r.underIssuer settings

end CertBroker.CertificateRequest
