import CertBroker.Base64
import CertBroker.Cluster.Metadata

namespace CertBroker

structure Secret where
  metadata : Metadata := {}
  type : Option String := none
  data : Option (Dict Bytes) := none
  stringData : Option (Dict String) := none
  immutable : Option Bool := none
deriving DecidableEq

/-- Reads the version or kind of a built-in object: it may be missing, but not be another one. -/
def Json.expectName (name : String) (members : List (String × Json)) (value : String) :
    Option Unit :=
  match member? name members with
  | none => some ()
  | some (.string s) => if s = value then some () else none
  | some _ => none

namespace Secret

open Json

def bytes? (j : Json) : Option Bytes :=
  match j with
  | .string s => (Base64.decodeText s).toOption
  | _ => none

def ofJson? (j : Json) : Option Secret := do
  let members ← j.members?
  expectName "apiVersion" members "v1"
  expectName "kind" members "Secret"
  match ← looseRecord? ["metadata", "type", "data", "stringData", "immutable"] j with
  | [metadata, type, data, stringData, immutable] =>
    return {
      metadata := (← optional Metadata.ofJson? metadata).getD {}
      type := ← optional text? type
      data := ← optional (dict? bytes?) data
      stringData := ← optional (dict? text?) stringData
      immutable := ← optional flag? immutable }
  | _ => none

def toJson (s : Secret) : Json :=
  .object (member "apiVersion" (.string "v1")
    ++ member "kind" (.string "Secret")
    ++ memberIf "data" (ofDict fun b => .string (Base64.encode b)) s.data
    ++ memberIf "immutable" .bool s.immutable
    ++ member "metadata" s.metadata.toJson
    ++ memberIf "stringData" ofTexts s.stringData
    ++ memberIf "type" .string s.type)

end Secret

end CertBroker
