import CertBroker.Cluster.Certificate
import CertBroker.Cluster.CertificateRequest
import CertBroker.Cluster.Ingress
import CertBroker.Cluster.Issuer
import CertBroker.Failure
import CertBroker.Net.Address
import CertBroker.Pki.Endpoint
import CertBroker.Pki.Operation

namespace CertBroker

/-- What a PKI client is made for, and speaks with. -/
structure Pki.Session where
  endpoint : Pki.Endpoint
  credentials : Pki.Credentials
deriving DecidableEq

/-- What came of looking up a name within the time allowed. -/
inductive Lookup where
  | found
  | failed (detail : String)
  | noAnswer
deriving DecidableEq, Repr

/-- What a pass may ask of its surroundings. It has no other effects. -/
inductive Ask where
  | now
  /-- An issuer; the namespace does not matter for one of the whole cluster. -/
  | readIssuer (scope : IssuerScope) (ns name : String)
  | readSecret (ns name : String)
  | readCertificate (ns name : String)
  | readIngress (ns name : String)
  /-- Writes the changes of annotations and status. -/
  | storeRequest (before after : CertificateRequest)
  /-- Adds the finalizer, and answers the request as stored. -/
  | addFinalizer (request : CertificateRequest)
  | removeFinalizer (request : CertificateRequest)
  | storeAnnotations (certificate : Certificate)
  | storeIssuerStatus (issuer : Issuer)
  /-- Makes a PKI client. -/
  | openSession (session : Pki.Session)
  | call (session : Pki.Session) (call : Pki.Call)
  /-- Looks up a name; the time allowed is in seconds. -/
  | lookUp (server : Net.SocketAddress) (name : String) (timeout : Nat)

/-- Whether a question asks for nothing but what is there. -/
def Ask.isReading : Ask → Bool
  | .now => true
  | .readIssuer _ _ _ => true
  | .readSecret _ _ => true
  | .readCertificate _ _ => true
  | .readIngress _ _ => true
  | .lookUp _ _ _ => true
  | _ => false

/-- The answers to a question. -/
abbrev Ask.Answer : Ask → Type
  | .now => Time
  | .readIssuer _ _ _ => Except Failure (Option Issuer)
  | .readSecret _ _ => Except Failure (Option Secret)
  | .readCertificate _ _ => Except Failure (Option Certificate)
  | .readIngress _ _ => Except Failure (Option Ingress)
  | .storeRequest _ _ => Except Failure Unit
  | .addFinalizer _ => Except Failure CertificateRequest
  | .removeFinalizer _ => Except Failure Unit
  | .storeAnnotations _ => Except Failure Unit
  | .storeIssuerStatus _ => Except Failure Unit
  | .openSession _ => Except PkiError Unit
  | .call _ c => c.Outcome
  | .lookUp _ _ _ => Lookup

end CertBroker
