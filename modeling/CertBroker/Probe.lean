
namespace CertBroker

/-- Whether the controllers run. -/
structure Probe where
  ready : Bool := false
deriving DecidableEq, Repr

namespace Probe

/-- The answer to a request: status code and body. Both routes answer GET and HEAD only. -/
def answer (p : Probe) (method path : String) : Nat × String :=
  let found (code : Nat) (body : String) : Nat × String :=
    if method = "GET" then (code, body)
    else if method = "HEAD" then (code, "")
    else (405, "")
  if path = "/healthz" then found 200 "ok"
  else if path = "/readyz" then
    if p.ready then found 200 "ready" else found 503 "not ready"
  else (404, "")

/-- The path of a request target, without its query. -/
def pathOf (target : String) : String := String.ofList (target.toList.takeWhile (· != '?'))

end Probe

end CertBroker
