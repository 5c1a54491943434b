import CertBroker.Pki.Protocol

namespace CertBroker.Pki

inductive Operation where
  | checkHealth
  | submitEnroll
  | submitRenew
  | pollStatus
  | revoke
deriving DecidableEq, Repr

namespace Operation

def text : Operation → String
  | .checkHealth => "check_health"
  | .submitEnroll => "submit_enroll"
  | .submitRenew => "submit_renew"
  | .pollStatus => "poll_status"
  | .revoke => "revoke"

def all : List Operation := [.checkHealth, .submitEnroll, .submitRenew, .pollStatus, .revoke]

def ofText? (s : String) : Option Operation := all.find? (fun o => o.text = s)

end Operation

namespace Call

def operation : Call → Operation
  | .checkHealth => .checkHealth
  | .enroll _ => .submitEnroll
  | .renew _ _ => .submitRenew
  | .poll _ => .pollStatus
  | .revoke _ _ => .revoke

/-- What a successful call answers: a submission the id of its request, a poll the request. -/
abbrev Reply : Call → Type
  | .checkHealth => Unit
  | .enroll _ => String
  | .renew _ _ => String
  | .poll _ => Request
  | .revoke _ _ => Unit

abbrev Outcome (c : Call) : Type := Except PkiError c.Reply

end Call

end CertBroker.Pki
