import CertBroker.Cluster.Ledger
import CertBroker.Pass.Basic
import CertBroker.Pki.InMemory

namespace CertBroker

/-- The calls of the store that can be made to fail. -/
inductive StoreCall where
  | getIssuer
  | getSecret
  | getCertificate
  | getIngress
  | persistRequest
  | addFinalizer
  | removeFinalizer
  | persistAnnotations
  | persistIssuerStatus
deriving DecidableEq, Repr

namespace StoreCall

def text : StoreCall → String
  | .getIssuer => "get_issuer"
  | .getSecret => "get_secret"
  | .getCertificate => "get_certificate"
  | .getIngress => "get_ingress"
  | .persistRequest => "persist_certificate_request"
  | .addFinalizer => "add_finalizer"
  | .removeFinalizer => "remove_finalizer"
  | .persistAnnotations => "persist_certificate_annotations"
  | .persistIssuerStatus => "persist_issuer_status"

def all : List StoreCall := [.getIssuer, .getSecret, .getCertificate, .getIngress,
  .persistRequest, .addFinalizer, .removeFinalizer, .persistAnnotations, .persistIssuerStatus]

def ofText? (s : String) : Option StoreCall := all.find? (fun c => c.text = s)

end StoreCall

/-- The key of a namespaced object. -/
def objectKey (ns name : String) : String := ns ++ "/" ++ name

def issuerKey (scope : IssuerScope) (ns name : String) : String :=
  match scope with
  | .namespaced => "Issuer/" ++ objectKey ns name
  | .cluster => "ClusterIssuer/" ++ name

namespace Metadata

def key (m : Metadata) : String := objectKey m.nsText m.nameText

/-- With the finalizer, or without it. -/
def withFinalizer (m : Metadata) (present : Bool) : Metadata :=
  { m with finalizers := some (m.finalizersWith present) }

end Metadata

def Issuer.key (i : Issuer) : String := issuerKey i.scope i.metadata.nsText i.metadata.nameText

namespace Simulation

/-- Surroundings kept in memory: cluster objects, a PKI, and a DNS server. Reads give the object
under a key, writes replace it, and single calls of the store can be made to fail. -/
structure World where
  issuers : Dict Issuer := .empty
  secrets : Dict Secret := .empty
  certificates : Dict Certificate := .empty
  ingresses : Dict Ingress := .empty
  requests : Dict CertificateRequest := .empty
  pki : Pki.InMemory := {}
  /-- The names that resolve. -/
  names : List String := []
  /-- The names whose lookup is never answered. -/
  silent : List String := []
  /-- Failing calls of the store; the last one set counts. -/
  failing : List (StoreCall × Failure) := []
  clock : Time := ⟨0, 0, 0⟩

namespace World

def putIssuer (w : World) (i : Issuer) : World := { w with issuers := w.issuers.insert i.key i }

def putSecret (w : World) (s : Secret) : World :=
  { w with secrets := w.secrets.insert s.metadata.key s }

def putCertificate (w : World) (c : Certificate) : World :=
  { w with certificates := w.certificates.insert c.metadata.key c }

def putIngress (w : World) (i : Ingress) : World :=
  { w with ingresses := w.ingresses.insert i.metadata.key i }

def putRequest (w : World) (r : CertificateRequest) : World :=
  { w with requests := w.requests.insert r.metadata.key r }

/-- Makes a call of the store fail from now on. -/
def fail (w : World) (c : StoreCall) (f : Failure) : World :=
  { w with failing := (c, f) :: w.failing }

def clear (w : World) (c : StoreCall) : World :=
  { w with failing := w.failing.filter fun e => e.1 ≠ c }

def failure? (w : World) (c : StoreCall) : Option Failure :=
  (w.failing.find? fun e => e.1 = c).map (·.2)

/-- A call of the store that reads. -/
def read (w : World) (c : StoreCall) (found : α) : Except Failure α :=
  match w.failure? c with
  | some f => .error f
  | none => .ok found

/-- A call of the store that writes. -/
def write (w : World) (c : StoreCall) (value : α) (written : World) : Except Failure α × World :=
  match w.failure? c with
  | some f => (.error f, w)
  | none => (.ok value, written)

/-- A request with its finalizers changed. -/
def guard (r : CertificateRequest) (present : Bool) : CertificateRequest :=
  { r with metadata := r.metadata.withFinalizer present }

def lookUp (w : World) (name : String) : Lookup :=
  if w.silent.contains name then .noAnswer
  else if w.names.contains name then .found
  else .failed "NXDOMAIN"

/-- How the world answers the questions of passes. -/
def answer : Surroundings World
  | w, .now => (w.clock, w)
  | w, .readIssuer scope ns name =>
    (w.read .getIssuer (w.issuers.get? (issuerKey scope ns name)), w)
  | w, .readSecret ns name => (w.read .getSecret (w.secrets.get? (objectKey ns name)), w)
  | w, .readCertificate ns name =>
    (w.read .getCertificate (w.certificates.get? (objectKey ns name)), w)
  | w, .readIngress ns name => (w.read .getIngress (w.ingresses.get? (objectKey ns name)), w)
  | w, .storeRequest _ after => w.write .persistRequest () (w.putRequest after)
  | w, .addFinalizer r => w.write .addFinalizer (guard r true) (w.putRequest (guard r true))
  | w, .removeFinalizer r => w.write .removeFinalizer () (w.putRequest (guard r false))
  | w, .storeAnnotations c => w.write .persistAnnotations () (w.putCertificate c)
  | w, .storeIssuerStatus i => w.write .persistIssuerStatus () (w.putIssuer i)
  | w, .openSession s =>
    let (outcome, pki) := w.pki.build s.endpoint s.credentials
    (outcome, { w with pki })
  | w, .call _ c =>
    let (outcome, pki) := w.pki.call c
    (outcome, { w with pki })
  | w, .lookUp _ name _ => (w.lookUp name, w)

theorem answer_eq_self_of_isReading {q : Ask} (h : q.isReading = true) (w : World) :
    (answer w q).2 = w := by
  cases q <;> first | rfl | cases h

end World

end Simulation

end CertBroker
