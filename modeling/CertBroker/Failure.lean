import CertBroker.Cluster.Reference
import CertBroker.Pki.Error

namespace CertBroker

/-- An error answer of the API server. -/
structure ApiStatus where
  status : String
  message : String := ""
  reason : String := ""
  code : Nat
deriving DecidableEq, Repr

def ApiStatus.text (s : ApiStatus) : String :=
  "ApiError: " ++ s.message ++ ": " ++ s.reason ++ " (ErrorResponse \x7b status: "
    ++ Text.quoted s.status ++ ", message: " ++ Text.quoted s.message ++ ", reason: "
    ++ Text.quoted s.reason ++ ", code: " ++ toString s.code ++ " \x7d)"

inductive Failure where
  /-- The API server answered with an error. -/
  | api (answer : ApiStatus)
  /-- Any other trouble with the API server. -/
  | cluster (detail : String)
  | pki (error : PkiError)
  | invalidConfig (detail : String)
  | issuerRef (error : ReferenceError)
  | issuerNotFound (detail : String)
  | credentials (detail : String)
  | invalidCsr (detail : String)
  | dnsValidation (detail : String)
  | missingParent (detail : String)
  /-- A write was refused because the object had changed since it was read. -/
  | conflict (detail : String)
  | watch (detail : String)
  /-- A failure, and what failed afterwards while its outcome was written. -/
  | aggregate (source : Failure) (persistence : List Failure)
deriving Inhabited

/-- What has to change before a failure can go away. -/
inductive FailureClass where
  | configuration
  | transient
  | malformedRequest
  | pkiRejection
  | persistence
deriving DecidableEq, Repr

def FailureClass.text : FailureClass → String
  | .configuration => "Configuration"
  | .transient => "Transient"
  | .malformedRequest => "MalformedRequest"
  | .pkiRejection => "PkiRejection"
  | .persistence => "Persistence"

namespace Failure

mutual

def message : Failure → String
  | .api answer => "Kubernetes error: " ++ answer.text
  | .cluster d => "Kubernetes error: " ++ d
  | .pki e => "PKI error: " ++ e.message
  | .invalidConfig d => "Invalid configuration: " ++ d
  | .issuerRef e => "Invalid issuer reference: " ++ e.message
  | .issuerNotFound d => "Issuer not found: " ++ d
  | .credentials d => "Invalid credentials: " ++ d
  | .invalidCsr d => "Invalid CSR: " ++ d
  | .dnsValidation d => "Certificate failed the DNS validation: " ++ d
  | .missingParent d => "Parent certificate not found: " ++ d
  | .conflict d => "Update conflict: " ++ d
  | .watch d => "Resource watch failed: " ++ d
  | .aggregate source persistence =>
    source.message ++ "; additionally failed to persist: "
      ++ "; ".intercalate (messages persistence)

def messages : List Failure → List String
  | [] => []
  | f :: rest => f.message :: messages rest

end

/-- The class; later failures do not change it. -/
def kind : Failure → FailureClass
  | .api _ => .persistence
  | .cluster _ => .persistence
  | .conflict _ => .persistence
  | .pki (.rejected _ _) => .pkiRejection
  | .pki (.invalidConfig _) => .configuration
  | .pki (.authentication _) => .configuration
  | .pki _ => .transient
  | .invalidConfig _ => .configuration
  | .issuerRef _ => .configuration
  | .issuerNotFound _ => .configuration
  | .credentials _ => .configuration
  | .invalidCsr _ => .malformedRequest
  | .dnsValidation _ => .transient
  | .missingParent _ => .transient
  | .watch _ => .transient
  | .aggregate source _ => source.kind

/-- Attaches the failures that followed; none leave the failure as it is. -/
def attach (f : Failure) (persistence : List Failure) : Failure :=
  if persistence.isEmpty then f else .aggregate f persistence

@[simp] theorem kind_attach (f : Failure) (persistence : List Failure) :
    (f.attach persistence).kind = f.kind := by
  unfold attach
  split <;> simp [kind]

/-- Whether the PKI or this issuer will never accept the request as it is. -/
def isFinal (f : Failure) : Bool :=
  match f.kind with
  | .malformedRequest => true
  | .pkiRejection => true
  | _ => false

end Failure

end CertBroker
