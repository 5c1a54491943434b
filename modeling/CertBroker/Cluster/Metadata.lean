import CertBroker.Json.Record
import CertBroker.Time

namespace CertBroker

/-- A reference from an object to one that owns it. -/
structure OwnerReference where
  apiVersion : String
  blockOwnerDeletion : Option Bool
  controller : Option Bool
  kind : String
  name : String
  uid : String
deriving DecidableEq

/-- A record of which writer manages which fields. -/
structure ManagedFields where
  apiVersion : Option String
  fieldsType : Option String
  fieldsV1 : Option Json
  manager : Option String
  operation : Option String
  subresource : Option String
  time : Option Time
deriving DecidableEq

structure Metadata where
  annotations : Option (Dict String) := none
  creationTimestamp : Option Time := none
  deletionGracePeriodSeconds : Option Int := none
  deletionTimestamp : Option Time := none
  finalizers : Option (List String) := none
  generateName : Option String := none
  generation : Option Int := none
  labels : Option (Dict String) := none
  managedFields : Option (List ManagedFields) := none
  name : Option String := none
  ns : Option String := none
  ownerReferences : Option (List OwnerReference) := none
  resourceVersion : Option String := none
  selfLink : Option String := none
  uid : Option String := none
deriving DecidableEq

open Json

def Time.ofJson? (j : Json) : Option Time := j.text?.bind Time.parse?

def Time.toJson (t : Time) : Json := .string t.text

namespace OwnerReference

def ofJson? (j : Json) : Option OwnerReference := do
  match ← looseRecord?
      ["apiVersion", "blockOwnerDeletion", "controller", "kind", "name", "uid"] j with
  | [apiVersion, blockOwnerDeletion, controller, kind, name, uid] =>
    return {
      apiVersion := ← defaulted "" text? apiVersion
      blockOwnerDeletion := ← optional flag? blockOwnerDeletion
      controller := ← optional flag? controller
      kind := ← defaulted "" text? kind
      name := ← defaulted "" text? name
      uid := ← defaulted "" text? uid }
  | _ => none

def toJson (o : OwnerReference) : Json :=
  .object (member "apiVersion" (.string o.apiVersion)
    ++ memberIf "blockOwnerDeletion" .bool o.blockOwnerDeletion
    ++ memberIf "controller" .bool o.controller
    ++ member "kind" (.string o.kind)
    ++ member "name" (.string o.name)
    ++ member "uid" (.string o.uid))

end OwnerReference

namespace ManagedFields

def ofJson? (j : Json) : Option ManagedFields := do
  match ← looseRecord? ["apiVersion", "fieldsType", "fieldsV1", "manager", "operation",
      "subresource", "time"] j with
  | [apiVersion, fieldsType, fieldsV1, manager, operation, subresource, time] =>
    return {
      apiVersion := ← optional text? apiVersion
      fieldsType := ← optional text? fieldsType
      fieldsV1 := ← optional some fieldsV1
      manager := ← optional text? manager
      operation := ← optional text? operation
      subresource := ← optional text? subresource
      time := ← optional Time.ofJson? time }
  | _ => none

def toJson (m : ManagedFields) : Json :=
  .object (memberIf "apiVersion" .string m.apiVersion
    ++ memberIf "fieldsType" .string m.fieldsType
    ++ memberIf "fieldsV1" id m.fieldsV1
    ++ memberIf "manager" .string m.manager
    ++ memberIf "operation" .string m.operation
    ++ memberIf "subresource" .string m.subresource
    ++ memberIf "time" (fun t => .string t.textToSecond) m.time)

end ManagedFields

namespace Metadata

def ofJson? (j : Json) : Option Metadata := do
  match ← looseRecord? ["annotations", "creationTimestamp", "deletionGracePeriodSeconds",
      "deletionTimestamp", "finalizers", "generateName", "generation", "labels", "managedFields",
      "name", "namespace", "ownerReferences", "resourceVersion", "selfLink", "uid"] j with
  | [annotations, creationTimestamp, deletionGracePeriodSeconds, deletionTimestamp, finalizers,
      generateName, generation, labels, managedFields, name, ns, ownerReferences,
      resourceVersion, selfLink, uid] =>
    return {
      annotations := ← optional (dict? text?) annotations
      creationTimestamp := ← optional Time.ofJson? creationTimestamp
      deletionGracePeriodSeconds := ← optional int64? deletionGracePeriodSeconds
      deletionTimestamp := ← optional Time.ofJson? deletionTimestamp
      finalizers := ← optional (items? text?) finalizers
      generateName := ← optional text? generateName
      generation := ← optional int64? generation
      labels := ← optional (dict? text?) labels
      managedFields := ← optional (items? ManagedFields.ofJson?) managedFields
      name := ← optional text? name
      ns := ← optional text? ns
      ownerReferences := ← optional (items? OwnerReference.ofJson?) ownerReferences
      resourceVersion := ← optional text? resourceVersion
      selfLink := ← optional text? selfLink
      uid := ← optional text? uid }
  | _ => none

def toJson (m : Metadata) : Json :=
  .object (memberIf "annotations" ofTexts m.annotations
    ++ memberIf "creationTimestamp" (fun t => .string t.textToSecond) m.creationTimestamp
    ++ memberIf "deletionGracePeriodSeconds" .int m.deletionGracePeriodSeconds
    ++ memberIf "deletionTimestamp" (fun t => .string t.textToSecond) m.deletionTimestamp
    ++ memberIf "finalizers" (fun fs => .array (fs.map .string)) m.finalizers
    ++ memberIf "generateName" .string m.generateName
    ++ memberIf "generation" .int m.generation
    ++ memberIf "labels" ofTexts m.labels
    ++ memberIf "managedFields" (fun fs => .array (fs.map ManagedFields.toJson)) m.managedFields
    ++ memberIf "name" .string m.name
    ++ memberIf "namespace" .string m.ns
    ++ memberIf "ownerReferences" (fun os => .array (os.map OwnerReference.toJson))
      m.ownerReferences
    ++ memberIf "resourceVersion" .string m.resourceVersion
    ++ memberIf "selfLink" .string m.selfLink
    ++ memberIf "uid" .string m.uid)

/-- The name, empty if unset. -/
def nameText (m : Metadata) : String := m.name.getD ""

/-- The namespace, empty if unset. -/
def nsText (m : Metadata) : String := m.ns.getD ""

end Metadata

end CertBroker
