import CertBroker.Simulation.World

namespace CertBroker.Simulation

inductive ObjectKind where
  | request
  | issuer
  | secret
  | certificate
  | ingress
deriving DecidableEq, Repr

namespace ObjectKind

def text : ObjectKind → String
  | .request => "request"
  | .issuer => "issuer"
  | .secret => "secret"
  | .certificate => "certificate"
  | .ingress => "ingress"

def all : List ObjectKind := [.issuer, .secret, .certificate, .ingress, .request]

def ofText? (s : String) : Option ObjectKind := all.find? fun k => k.text = s

end ObjectKind

inductive Object where
  | request (r : CertificateRequest)
  | issuer (i : Issuer)
  | secret (s : Secret)
  | certificate (c : Certificate)
  | ingress (i : Ingress)
deriving DecidableEq

namespace Object

def kind : Object → ObjectKind
  | .request _ => .request
  | .issuer _ => .issuer
  | .secret _ => .secret
  | .certificate _ => .certificate
  | .ingress _ => .ingress

def key : Object → String
  | .request r => r.metadata.key
  | .issuer i => i.key
  | .secret s => s.metadata.key
  | .certificate c => c.metadata.key
  | .ingress i => i.metadata.key

def ofJson? (k : ObjectKind) (j : Json) : Option Object :=
  match k with
  | .request => (CertificateRequest.ofJson? j).map .request
  | .issuer => (Issuer.ofJsonByKind? j).map .issuer
  | .secret => (Secret.ofJson? j).map .secret
  | .certificate => (Certificate.ofJson? j).map .certificate
  | .ingress => (Ingress.ofJson? j).map .ingress

def toJson : Object → Json
  | .request r => r.toJson
  | .issuer i => i.toJson
  | .secret s => s.toJson
  | .certificate c => c.toJson
  | .ingress i => i.toJson

end Object

namespace World

def put (w : World) : Object → World
  | .request r => w.putRequest r
  | .issuer i => w.putIssuer i
  | .secret s => w.putSecret s
  | .certificate c => w.putCertificate c
  | .ingress i => w.putIngress i

def find? (w : World) (k : ObjectKind) (key : String) : Option Object :=
  match k with
  | .request => (w.requests.get? key).map .request
  | .issuer => (w.issuers.get? key).map .issuer
  | .secret => (w.secrets.get? key).map .secret
  | .certificate => (w.certificates.get? key).map .certificate
  | .ingress => (w.ingresses.get? key).map .ingress

def remove (w : World) (k : ObjectKind) (key : String) : World :=
  match k with
  | .request => { w with requests := w.requests.erase key }
  | .issuer => { w with issuers := w.issuers.erase key }
  | .secret => { w with secrets := w.secrets.erase key }
  | .certificate => { w with certificates := w.certificates.erase key }
  | .ingress => { w with ingresses := w.ingresses.erase key }

theorem find?_put (w : World) (o : Object) : (w.put o).find? o.kind o.key = some o := by
  cases o <;>
    simp [put, find?, Object.kind, Object.key, putRequest, putIssuer, putSecret, putCertificate,
      putIngress]

end World

end CertBroker.Simulation
