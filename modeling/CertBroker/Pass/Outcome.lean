import CertBroker.Cluster.Ledger
import CertBroker.Pass.Basic
import CertBroker.Pass.Verdict

namespace CertBroker

namespace CertificateRequest

/-- Links the parent Certificate to the certificate of this request, where it is not yet. -/
def linkParent (r : CertificateRequest) : Attempt Unit := do
  match r.metadata.certificateId?, r.metadata.parentName? with
  | some id, some name => do
    match ← Ask.certificate r.metadata.nsText name with
    | none => return ()
    | some parent =>
      let (metadata, changed) := parent.metadata.linkLastCertificateId id
      if changed then Ask.put (.storeAnnotations { parent with metadata })
  | _, _ => return ()

/-- The request as it is written: a failure of the pass shows on Ready. -/
def reflect (r : CertificateRequest) (outcome : Except Failure Action) :
    Pass CertificateRequest := do
  match outcome with
  | .ok _ => return r
  | .error f => do
    let now ← Ask.time
    return r.updateStatus fun s => s.applyFailure f now

end CertificateRequest

/-- The failures among two outcomes of writes. -/
def failuresOf (a b : Except Failure Unit) : List Failure :=
  (match a with
    | .ok () => []
    | .error f => [f])
  ++ match b with
    | .ok () => []
    | .error f => [f]

/-- The outcome of a pass together with the failures of its writes. -/
def joinOutcome (outcome : Except Failure Action) (failures : List Failure) :
    Except Failure Action :=
  match outcome, failures with
  | .ok action, [] => .ok action
  | .ok _, first :: rest => .error (first.attach rest)
  | .error f, failures => .error (f.attach failures)

/-- Writes the result of a pass. -/
def persistOutcome (before after : CertificateRequest) (outcome : Except Failure Action) :
    Attempt Action := do
  let after ← Attempt.lift (after.reflect outcome)
  let stored ← Attempt.lift (Ask.put (.storeRequest before after))
  let linked ← Attempt.lift after.linkParent.result
  Attempt.ofExcept (joinOutcome outcome (failuresOf stored linked))

end CertBroker
