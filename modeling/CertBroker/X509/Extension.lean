import CertBroker.X509.Name

namespace CertBroker.X509

open Der

structure Extension where
  id : Bytes
  value : Bytes
deriving DecidableEq

def extension : Reader Extension := inSequence do
  let id ← oid
  skipBoolean
  return { id, value := ← contents octetStringTag }

/-- A SEQUENCE of extensions and nothing else in it. -/
def extensions : Reader (List Extension) := inSequence (whole (many extension))

/-- An alternative name, as far as it matters here. -/
inductive GeneralName where
  | dns (name : String)
  | other
deriving DecidableEq

def utf8? (bs : Bytes) : Option String := (Utf8.decode bs).toOption

/-- The name in an element of its own context-specific tag. -/
def generalName? (e : Element) : Option GeneralName :=
  if e.tagClass ≠ 2 then none
  else match e.tag with
    | 0 => ((oid.run e.contents : Option (Bytes × Bytes))).map fun _ => .other
    | 1 => (utf8? e.contents).map fun _ => .other
    | 2 => (utf8? e.contents).map .dns
    | 3 => some .other
    | 4 => (((whole name).run e.contents : Option (Name × Bytes))).map fun _ => .other
    | 5 => some .other
    | 6 => (utf8? e.contents).map fun _ => .other
    | 7 => some .other
    | 8 => some .other
    | _ => none

def generalName : Reader GeneralName := do
  let e ← element
  (generalName? e : Option GeneralName)

/-- The type of the extension for alternative names of the subject. -/
def alternativeNameType : Bytes := [0x55, 0x1d, 0x11]

/-- The DNS names of an extension for alternative names; a malformed one has none. -/
def Extension.dnsNames (x : Extension) : List String :=
  if x.id = alternativeNameType then
    match ((inSequence (whole (many generalName))).run x.value :
        Option (List GeneralName × Bytes)) with
    | some (names, _) => names.filterMap fun
      | .dns name => some name
      | .other => none
    | none => []
  else []

end CertBroker.X509
