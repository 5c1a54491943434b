import CertBroker.Pki.Endpoint
import CertBroker.Pki.Operation

namespace CertBroker.Pki

/-- A PKI kept in memory. Submissions become pending requests named req-1, req-2 and so on, which
are moved along from outside; single operations and the construction of clients can be made to fail.
-/
structure InMemory where
  requests : Dict Request := .empty
  /-- The errors of failing operations by the operation's name. -/
  failing : Dict PkiError := .empty
  /-- Makes every construction of a client fail. -/
  refusal : Option String := none
  nextId : Nat := 1
  /-- All calls, the oldest first. -/
  calls : List Call := []
  /-- What clients were constructed for, the oldest first. -/
  built : List (Endpoint × Credentials) := []
deriving DecidableEq

namespace InMemory

def setRequest (m : InMemory) (r : Request) : InMemory :=
  { m with requests := m.requests.insert r.id r }

def fail (m : InMemory) (o : Operation) (e : PkiError) : InMemory :=
  { m with failing := m.failing.insert o.text e }

def clear (m : InMemory) (o : Operation) : InMemory :=
  { m with failing := m.failing.erase o.text }

def record (m : InMemory) (c : Call) : InMemory := { m with calls := m.calls ++ [c] }

def createPending (m : InMemory) (workflow : Workflow) : String × InMemory :=
  let id := "req-" ++ toString m.nextId
  (id, { m.setRequest { id, workflow := some workflow, status := .pending } with
    nextId := m.nextId + 1 })

/-- What a call does when its operation does not fail. -/
def perform (m : InMemory) : (c : Call) → c.Outcome × InMemory
  | .checkHealth => (.ok (), m)
  | .enroll _ => let (id, m) := m.createPending .enroll; (.ok id, m)
  | .renew _ _ => let (id, m) := m.createPending .renew; (.ok id, m)
  | .poll id =>
    match m.requests.get? id with
    | some r => (.ok r, m)
    | none => (.error (.notFound ("request " ++ id)), m)
  | .revoke _ _ => (.ok (), m)

def call (m : InMemory) (c : Call) : c.Outcome × InMemory :=
  match m.failing.get? c.operation.text with
  | some e => (.error e, m.record c)
  | none => (m.record c).perform c

def build (m : InMemory) (endpoint : Endpoint) (credentials : Credentials) :
    Except PkiError Unit × InMemory :=
  match m.refusal with
  | some message => (.error (.invalidConfig message), m)
  | none => (.ok (), { m with built := m.built ++ [(endpoint, credentials)] })

def count (m : InMemory) (o : Operation) : Nat := m.calls.countP (fun c => c.operation = o)

theorem call_failing {m : InMemory} {c : Call} {e : PkiError}
    (h : m.failing.get? c.operation.text = some e) : m.call c = (.error e, m.record c) := by
  simp [call, h]

end InMemory

end CertBroker.Pki
