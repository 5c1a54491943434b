import CertBroker.Pass.Session
import CertBroker.Pass.Verdict

namespace CertBroker.Issuer

def setReady (i : Issuer) (status : ConditionStatus) (reason message : String) (now : Time) :
    Issuer :=
  { i with status := some (i.currentStatus.setReadyCondition status reason message now) }

/-- Calls the PKI once. -/
def probe (i : Issuer) (settings : Settings) : Attempt Unit := do
  let session ← i.openSession settings
  session.call .checkHealth

/-- The issuer with the outcome of a probe as its Ready condition. -/
def probed (i : Issuer) (outcome : Except Failure Unit) (now : Time) : Issuer :=
  match outcome with
  | .ok () => i.setReady .yes Reason.success Message.healthy now
  | .error f => i.setReady .no Reason.error f.message now

/-- The outcome of a probe together with the outcome of writing it. -/
def joinProbe (settings : Settings) (outcome stored : Except Failure Unit) :
    Except Failure Action :=
  match outcome, stored with
  | .ok (), .ok () => .ok (.requeue settings.healthCheckInterval)
  | .ok (), .error e => .error e
  | .error f, .ok () => .error f
  | .error f, .error e => .error (f.attach [e])

def storeIfChanged (before after : Issuer) : Pass (Except Failure Unit) :=
  if after.currentStatus = before.currentStatus then return .ok ()
  else Ask.put (.storeIssuerStatus after)

def reconcile (i : Issuer) (settings : Settings) : Attempt Action := do
  if i.currentStatus.readyCondition.isNone then do
    let now ← Attempt.lift Ask.time
    Ask.put (.storeIssuerStatus (i.setReady .unknown Reason.firstSeen Message.firstSeen now))
    return .awaitChange
  else do
    let outcome ← Attempt.lift (i.probe settings).result
    let now ← Attempt.lift Ask.time
    let stored ← Attempt.lift (storeIfChanged i (i.probed outcome now))
    Attempt.ofExcept (joinProbe settings outcome stored)

end CertBroker.Issuer
