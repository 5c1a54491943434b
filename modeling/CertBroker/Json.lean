
namespace CertBroker

/-- A JSON value. Numbers are integers of at most 64 bits, or the text of any other number; an
object lists its members as they are written, also if a name stands there twice. -/
inductive Json where
  | null
  | bool (value : Bool)
  | int (value : Int)
  | decimal (text : String)
  | string (value : String)
  | array (items : List Json)
  | object (members : List (String × Json))

namespace Json

instance : Inhabited Json := ⟨.null⟩

mutual

/-- Equality of values, member by member in the order written. -/
def same : Json → Json → Bool
  | .null, .null => true
  | .bool a, .bool b => a == b
  | .int a, .int b => a == b
  | .decimal a, .decimal b => a == b
  | .string a, .string b => a == b
  | .array a, .array b => sameItems a b
  | .object a, .object b => sameMembers a b
  | _, _ => false

def sameItems : List Json → List Json → Bool
  | [], [] => true
  | a :: as, b :: bs => same a b && sameItems as bs
  | _, _ => false

def sameMembers : List (String × Json) → List (String × Json) → Bool
  | [], [] => true
  | (k, a) :: as, (l, b) :: bs => k == l && same a b && sameMembers as bs
  | _, _ => false

end

mutual

theorem same_iff : ∀ {a b : Json}, same a b = true ↔ a = b
  | .null, b => by cases b <;> simp [same]
  | .bool _, b => by cases b <;> simp [same]
  | .int _, b => by cases b <;> simp [same]
  | .decimal _, b => by cases b <;> simp [same]
  | .string _, b => by cases b <;> simp [same]
  | .array _, b => by cases b <;> simp [same, sameItems_iff]
  | .object _, b => by cases b <;> simp [same, sameMembers_iff]

theorem sameItems_iff : ∀ {a b : List Json}, sameItems a b = true ↔ a = b
  | [], b => by cases b <;> simp [sameItems]
  | _ :: _, b => by cases b <;> simp [sameItems, same_iff, sameItems_iff]

theorem sameMembers_iff : ∀ {a b : List (String × Json)}, sameMembers a b = true ↔ a = b
  | [], b => by cases b <;> simp [sameMembers]
  | (_, _) :: _, b => by
    cases b with
    | nil => simp [sameMembers]
    | cons head rest =>
      cases head
      simp [sameMembers, same_iff, sameMembers_iff, and_assoc]

end

instance : DecidableEq Json := fun a b =>
  if h : same a b = true then isTrue (same_iff.mp h)
  else isFalse (fun hab => h (same_iff.mpr hab))

/-- The members with this name, in the order written. -/
def membersNamed (name : String) (members : List (String × Json)) : List Json :=
  (members.filter (fun m => m.1 = name)).map (·.2)

/-- The value of the last member with this name. -/
def member? (name : String) (members : List (String × Json)) : Option Json :=
  (membersNamed name members).getLast?

/-- A member of a value, where a value that is no object has none. -/
def get? (name : String) : Json → Option Json
  | .object members => member? name members
  | _ => none

def dropMember (name : String) (members : List (String × Json)) : List (String × Json) :=
  members.filter (fun m => m.1 ≠ name)

/-- Replaces a member in its place, or adds it at the end; it stands once afterwards. -/
def setMember (name : String) (value : Json) : List (String × Json) → List (String × Json)
  | [] => [(name, value)]
  | (k, v) :: rest =>
    if k = name then (k, value) :: dropMember name rest else (k, v) :: setMember name value rest

def text? : Json → Option String
  | .string s => some s
  | _ => none

def flag? : Json → Option Bool
  | .bool b => some b
  | _ => none

/-- An integer within the given bounds. -/
def intIn? (low high : Int) : Json → Option Int
  | .int n => if low ≤ n && n ≤ high then some n else none
  | _ => none

def int32? : Json → Option Int := intIn? (-2147483648) 2147483647

def int64? : Json → Option Int := intIn? (-9223372036854775808) 9223372036854775807

def items? (read : Json → Option α) : Json → Option (List α)
  | .array items => items.mapM read
  | _ => none

def members? : Json → Option (List (String × Json))
  | .object members => some members
  | _ => none

end Json

end CertBroker
