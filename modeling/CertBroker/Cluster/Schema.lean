import CertBroker.Json.Record
import CertBroker.Text.Order

namespace CertBroker

/-- Whether a field may be missing; one that may be null is a field that may be missing. -/
inductive Presence where
  | required
  | optional
  | nullable
deriving DecidableEq, Repr

mutual

inductive Schema where
  | text
  | time
  | flag (default : Bool)
  | choice (values : List String)
  /-- Texts by any keys. -/
  | table
  | list (about : String) (items : Schema)
  | record (fields : List SchemaField)

inductive SchemaField where
  | mk (presence : Presence) (name about : String) (schema : Schema)

end

namespace SchemaField

def name : SchemaField → String
  | .mk _ name _ _ => name

def isRequired : SchemaField → Bool
  | .mk presence _ _ _ => presence = .required

end SchemaField

namespace Schema

open Json

/-- The names of the required fields, sorted. -/
def requiredNames (fields : List SchemaField) : List String :=
  ((fields.filter (·.isRequired)).map (·.name)).mergeSort fun s t => !Text.before t s

theorem mem_of_mem_requiredNames {fields : List SchemaField} {name : String}
    (h : name ∈ requiredNames fields) : ∃ f ∈ fields, f.name = name := by
  simp only [requiredNames, List.mem_mergeSort, List.mem_map, List.mem_filter] at h
  obtain ⟨f, hf, hname⟩ := h
  exact ⟨f, hf.1, hname⟩

def typed (name : String) : List (String × Json) := member "type" (.string name)

mutual

/-- A schema without its description. -/
def members : Schema → List (String × Json)
  | .text => typed "string"
  | .time => typed "string" ++ member "format" (.string "date-time")
  | .flag default => typed "boolean" ++ member "default" (.bool default)
  | .choice values => typed "string" ++ member "enum" (.array (values.map .string))
  | .table => typed "object" ++ member "additionalProperties" (.object (typed "string"))
  | .list about items =>
    typed "array"
      ++ member "items" (.object (member "description" (.string about) ++ items.members))
  | .record fields =>
    typed "object" ++ member "properties" (.object (properties fields))
      ++ memberList "required" .string (requiredNames fields)

def properties : List SchemaField → List (String × Json)
  | [] => []
  | f :: rest => property f :: properties rest

def property : SchemaField → String × Json
  | .mk presence name about schema =>
    (name, .object (member "description" (.string about)
      ++ (if presence = .nullable then member "nullable" (.bool true) else [])
      ++ schema.members))

end

end Schema

end CertBroker
