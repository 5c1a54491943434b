import CertBroker.Cluster.Secret

namespace CertBroker

/-- The shape of a built-in JSON value. In an object, null means absent, unknown members are
dropped, and a required member that is absent takes the blank value of its shape. -/
inductive Shape where
  | text
  | int32
  | listOf (item : Shape)
  | record (fields : List (String × Bool × Shape))

namespace Shape

open Json

mutual

/-- What a required member of this shape holds when it is absent. -/
def blank : Shape → Json
  | .text => .string ""
  | .int32 => .int 0
  | .listOf _ => .array []
  | .record fields => .object (blankFields fields)

def blankFields : List (String × Bool × Shape) → List (String × Json)
  | [] => []
  | (name, true, shape) :: rest => (name, shape.blank) :: blankFields rest
  | (_, false, _) :: rest => blankFields rest

end

mutual

/-- The value in this shape, if it has it. -/
def read? : Shape → Json → Option Json
  | .text, j => j.text?.map .string
  | .int32, j => j.int32?.map .int
  | .listOf item, j => (j.items? item.read?).map .array
  | .record fields, j =>
    match j with
    | .object members => (readFields? fields members).map .object
    | _ => none

def readFields? : List (String × Bool × Shape) → List (String × Json) →
    Option (List (String × Json))
  | [], _ => some []
  | (name, isRequired, shape) :: rest, members =>
    match looseSlot members name with
    | some value => do
      let value ← shape.read? value
      return (name, value) :: (← readFields? rest members)
    | none => do
      let others ← readFields? rest members
      return if isRequired then (name, shape.blank) :: others else others

end

end Shape

namespace Ingress

open Shape

def backendShape : Shape := .record [
  ("resource", false, .record [("apiGroup", false, .text), ("kind", true, .text),
    ("name", true, .text)]),
  ("service", false, .record [("name", true, .text),
    ("port", false, .record [("name", false, .text), ("number", false, .int32)])])]

def specShape : Shape := .record [
  ("defaultBackend", false, backendShape),
  ("ingressClassName", false, .text),
  ("rules", false, .listOf (.record [
    ("host", false, .text),
    ("http", false, .record [("paths", true, .listOf (.record [
      ("backend", true, backendShape),
      ("path", false, .text),
      ("pathType", true, .text)]))])])),
  ("tls", false, .listOf (.record [("hosts", false, .listOf .text), ("secretName", false, .text)]))]

def statusShape : Shape := .record [
  ("loadBalancer", false, .record [("ingress", false, .listOf (.record [
    ("hostname", false, .text),
    ("ip", false, .text),
    ("ports", false, .listOf (.record [
      ("error", false, .text),
      ("port", true, .int32),
      ("protocol", true, .text)]))]))])]

end Ingress

/-- Specification and status are checked for their shape and carried along as JSON. -/
structure Ingress where
  metadata : Metadata := {}
  spec : Option Json := none
  status : Option Json := none
deriving DecidableEq

namespace Ingress

open Json

def ofJson? (j : Json) : Option Ingress := do
  let members ← j.members?
  expectName "apiVersion" members "networking.k8s.io/v1"
  expectName "kind" members "Ingress"
  match ← looseRecord? ["metadata", "spec", "status"] j with
  | [metadata, spec, status] =>
    return {
      metadata := (← optional Metadata.ofJson? metadata).getD {}
      spec := ← optional specShape.read? spec
      status := ← optional statusShape.read? status }
  | _ => none

def toJson (i : Ingress) : Json :=
  .object (member "apiVersion" (.string "networking.k8s.io/v1")
    ++ member "kind" (.string "Ingress")
    ++ member "metadata" i.metadata.toJson
    ++ memberIf "spec" id i.spec
    ++ memberIf "status" id i.status)

end Ingress

end CertBroker
