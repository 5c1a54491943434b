import CertBroker.Cluster.CertificateRequest
import CertBroker.Failure

namespace CertBroker

/-- Why a request needs no further work. -/
inductive Terminal where
  /-- Ready holds. -/
  | issued
  /-- Ready does not hold, for the reason Failed. -/
  | failed
  /-- Ready does not hold, for the reason Denied. -/
  | denied
  /-- Denied holds, by decision of the PKI. -/
  | deniedByPki
deriving DecidableEq, Repr

def Terminal.text : Terminal → String
  | .issued => "Issued"
  | .failed => "Failed"
  | .denied => "Denied"
  | .deniedByPki => "DeniedByPki"

namespace Message

def submitted : String := "Submitted request to the PKI"

def approved : String := "Request approved on the PKI"

def signed : String := "Signed"

def pkiDenied : String := "Request denied on the PKI"

def locallyDenied : String := "The CertificateRequest was denied by an approval controller"

def invalidRequest : String := "Invalid request"

def firstSeen : String := "First seen"

def healthy : String := "Health check succeeded"

end Message

namespace RequestStatus

/-- The first of the four reasons that applies, in the order of their declaration. -/
def terminal? (s : RequestStatus) : Option Terminal :=
  if s.hasTrue ConditionType.ready then some .issued
  else if s.readyIs .no Reason.failed then some .failed
  else if s.readyIs .no Reason.denied then some .denied
  else if (s.condition ConditionType.denied).any
      (fun c => c.isTrue && c.reasonText == Reason.pki) then some .deniedByPki
  else none

/-- Whether an approval controller denied the request. -/
def isDeniedByApprover (s : RequestStatus) : Bool :=
  (s.condition ConditionType.denied).any fun c => c.isTrue && c.reasonText != Reason.pki

/-- Whether a submission of this request was found to be refused for good. -/
def isInvalid (s : RequestStatus) : Bool :=
  (s.condition ConditionType.invalidRequest).any fun c =>
    c.isTrue && c.reasonText == Reason.failed

def applyLocalDenial (s : RequestStatus) (now : Time) : RequestStatus :=
  (s.markFailedOnce now).setCondition ConditionType.ready .no Reason.denied
    Message.locallyDenied now

/-- Marks a submission that will never be accepted. -/
def applyInvalidRequest (s : RequestStatus) (f : Failure) (now : Time) : RequestStatus :=
  s.setCondition ConditionType.invalidRequest .yes Reason.failed f.message now

/-- Reflects a failed pass on Ready: an invalid request has failed, any other is still pending. -/
def applyFailure (s : RequestStatus) (f : Failure) (now : Time) : RequestStatus :=
  if s.isInvalid then
    (s.markFailedOnce now).setCondition ConditionType.ready .no Reason.failed
      Message.invalidRequest now
  else s.setCondition ConditionType.ready .no Reason.pending f.message now

end RequestStatus

end CertBroker
