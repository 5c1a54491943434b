import CertBroker.Json
import CertBroker.Dict

namespace CertBroker.Json

/-- A field as found: absent, or some value. -/
abbrev Slot := Option Json

/-- The field of a record written as an object. -/
def slot? (members : List (String × Json)) (name : String) : Option Slot :=
  match membersNamed name members with
  | [] => some none
  | [value] => some (some value)
  | _ => none

/-- The fields of a record in the order of their names. A record is an object in which unknown
members are ignored and no known one stands twice, or an array of its first fields. -/
def record? (names : List String) : Json → Option (List Slot)
  | .object members => names.mapM (slot? members)
  | .array items =>
    if items.length ≤ names.length then
      some (items.map some ++ List.replicate (names.length - items.length) none)
    else none
  | _ => none

def required (read : Json → Option α) : Slot → Option α
  | some value => read value
  | none => none

/-- Absent and null are the same. -/
def optional (read : Json → Option α) : Slot → Option (Option α)
  | none => some none
  | some .null => some none
  | some value => (read value).map some

/-- Absent gives the default; null is no value. -/
def defaulted (default : α) (read : Json → Option α) : Slot → Option α
  | none => some default
  | some value => read value

/-- One of a fixed list of names, as a string, or as the only member of an object with null. -/
def name? : Json → Option String
  | .string s => some s
  | .object [(s, .null)] => some s
  | _ => none

/-- A map with text values. -/
def dict? (read : Json → Option α) : Json → Option (Dict α)
  | .object members => (members.mapM fun m => (read m.2).map (m.1, ·)).map Dict.ofList
  | _ => none

/-- The field of a lenient record, where null means absent and the last of equal names counts. -/
def looseSlot (members : List (String × Json)) (name : String) : Slot :=
  match member? name members with
  | some .null => none
  | found => found

/-- The fields of a lenient record in the order of their names. -/
def looseRecord? (names : List String) : Json → Option (List Slot)
  | .object members => some (names.map (looseSlot members))
  | _ => none

/-- A member that is always written. -/
def member (name : String) (value : Json) : List (String × Json) := [(name, value)]

/-- A member that is written when there is a value. -/
def memberIf (name : String) (write : α → Json) : Option α → List (String × Json)
  | some value => [(name, write value)]
  | none => []

/-- A member that is written unless it is the empty list. -/
def memberList (name : String) (write : α → Json) (values : List α) : List (String × Json) :=
  if values.isEmpty then [] else [(name, .array (values.map write))]

def ofDict (write : α → Json) (d : Dict α) : Json :=
  .object (d.entries.map fun e => (e.1, write e.2))

def ofTexts (d : Dict String) : Json := ofDict .string d

end CertBroker.Json
