import CertBroker.Json.Printer

namespace CertBroker.Json.Yaml

def isLetter (c : Char) : Bool :=
  (97 ≤ c.toNat && c.toNat ≤ 122) || (65 ≤ c.toNat && c.toNat ≤ 90)

/-- Words that are no texts when they stand bare. -/
def reserved : List String :=
  ["true", "false", "null", "yes", "no", "on", "off", "y", "n"]

/-- Whether a name reads as itself without quotes. -/
def isBare (name : String) : Bool :=
  name.toList.head?.any isLetter && name.toList.all (fun c => isLetter c || Text.isDigit c)
    && !reserved.contains (String.ofList (name.toList.map Char.toLower))

def nameText (name : String) : String :=
  if isBare name then name else (Json.string name).toText

def indent (line : String) : String := "  " ++ line

/-- The lines of an item of a list. -/
def itemLines : List String → List String
  | [] => []
  | first :: rest => ("- " ++ first) :: rest.map indent

/-- Whether a value is written on lines of its own. -/
def isBlock : Json → Bool
  | .array items => !items.isEmpty
  | .object members => !members.isEmpty
  | _ => false

mutual

def lines : Json → List String
  | .array [] => ["[]"]
  | .array (item :: rest) => listLines (item :: rest)
  | .object [] => ["\x7b\x7d"]
  | .object (m :: rest) => memberLines (m :: rest)
  | .null => ["null"]
  | .bool b => [if b then "true" else "false"]
  | .int n => [toString n]
  | .decimal t => [t]
  | .string s => [(Json.string s).toText]

def listLines : List Json → List String
  | [] => []
  | item :: rest => itemLines (lines item) ++ listLines rest

def memberLines : List (String × Json) → List String
  | [] => []
  | (name, value) :: rest =>
    (if isBlock value then (nameText name ++ ":") :: (lines value).map indent
      else (lines value).map (nameText name ++ ": " ++ ·)) ++ memberLines rest

end

def stream (documents : List Json) : String :=
  String.join (documents.map fun j => String.join (("---" :: lines j).map (· ++ "\n")))

end CertBroker.Json.Yaml
