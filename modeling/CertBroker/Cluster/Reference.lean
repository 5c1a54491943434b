import CertBroker.Cluster.Names
import CertBroker.Json.Record
import CertBroker.Text.Quoted

namespace CertBroker

structure IssuerReference where
  name : String
  kind : Option String := none
  group : Option String := none
deriving DecidableEq

/-- An issuer serves its own namespace, or every namespace. -/
inductive IssuerScope where
  | namespaced
  | cluster
deriving DecidableEq, Repr

def IssuerScope.text : IssuerScope → String
  | .namespaced => "Namespaced"
  | .cluster => "Cluster"

/-- Why a reference leads to no issuer. -/
inductive ReferenceError where
  | unknownKind (kind : String)
  | missingName
deriving DecidableEq, Repr

def ReferenceError.message : ReferenceError → String
  | .unknownKind kind => "unknown issuer kind " ++ Text.quoted kind
  | .missingName => "issuer reference has no name"

namespace IssuerScope

def kind : IssuerScope → String
  | .namespaced => "Issuer"
  | .cluster => "ClusterIssuer"

/-- Where an issuer is looked up for a request of the given namespace. -/
def issuerNamespace (scope : IssuerScope) (requestNamespace : String) : Option String :=
  match scope with
  | .namespaced => some requestNamespace
  | .cluster => none

/-- Where the Secret of an issuer is looked up. -/
def secretNamespace (scope : IssuerScope) (issuerNamespace : Option String)
    (clusterNamespace : String) : String :=
  match scope, issuerNamespace with
  | .namespaced, some ns => ns
  | _, _ => clusterNamespace

end IssuerScope

namespace IssuerReference

open Json

def targetsThisGroup (r : IssuerReference) : Bool := r.group == some groupName

/-- The scope of the kind that is named; no kind and the empty kind mean `Issuer`. -/
def scope (r : IssuerReference) : Except ReferenceError IssuerScope :=
  if r.name.isEmpty then .error .missingName
  else match r.kind with
    | none => .ok .namespaced
    | some kind =>
      if kind = "" || kind = IssuerScope.kind .namespaced then .ok .namespaced
      else if kind = IssuerScope.kind .cluster then .ok .cluster
      else .error (.unknownKind kind)

def ofJson? (j : Json) : Option IssuerReference := do
  match ← record? ["name", "kind", "group"] j with
  | [name, kind, group] =>
    return {
      name := ← required text? name
      kind := ← optional text? kind
      group := ← optional text? group }
  | _ => none

def toJson (r : IssuerReference) : Json :=
  .object (member "name" (.string r.name)
    ++ memberIf "kind" .string r.kind
    ++ memberIf "group" .string r.group)

end IssuerReference

end CertBroker
