import CertBroker.Pem
import CertBroker.X509.Extension

namespace CertBroker.X509

open Der

/-- A signing request: its subject, and the extensions it asks for. -/
structure SigningRequest where
  subject : Name
  extensions : List Extension
deriving DecidableEq

namespace SigningRequest

/-- The type of the attribute that asks for extensions. -/
def extensionRequestType : Bytes := [0x2a, 0x86, 0x48, 0x86, 0xf7, 0x0d, 0x01, 0x09, 0x0e]

/-- The type of the attribute with a challenge password. -/
def challengePasswordType : Bytes := [0x2a, 0x86, 0x48, 0x86, 0xf7, 0x0d, 0x01, 0x09, 0x07]

/-- The string types in which a challenge password may stand. -/
def passwordTags : List Nat := [12, 19, 20, 28, 30]

/-- One attribute: the extensions it asks for, if it is of that kind. -/
def requestAttribute : Reader (Option (List Extension)) := inSequence do
  let type ← oid
  let set ← header
  if set.tag ≠ setTag then fail
  else if type = extensionRequestType then return some (← X509.extensions)
  else if type = challengePasswordType then do
    let e ← element
    if passwordTags.contains e.tag then return none else fail
  else return none

/-- The attributes, which may be left empty; the first that asks for extensions counts. -/
def attributes : Reader (List Extension) := do
  let h ← header
  if ← atEnd then return []
  else if h.tagClass = 2 && h.tag = 0 then
    let all ← whole (many requestAttribute)
    return (all.filterMap id).head?.getD []
  else fail

def info : Reader SigningRequest := inSequence do
  let _ ← uint32
  let subject ← name
  let _ ← publicKey
  return { subject, extensions := ← attributes }

def request : Reader SigningRequest := inSequence do
  let request ← info
  let _ ← algorithm
  let _ ← bitString
  return request

/-- Reads a request from DER; bytes after it are ignored. -/
def ofDer? (bs : Bytes) : Option SigningRequest := (request.run bs : Option _).map (·.1)

/-- The common names that are not empty, then the DNS alternative names. -/
def allNames (r : SigningRequest) : List String :=
  r.subject.commonNames.filter (fun n => !n.isEmpty) ++ r.extensions.flatMap Extension.dnsNames

/-- Keeps the first of equal texts, and none of those seen before. -/
def distinctFrom (seen : List String) : List String → List String
  | [] => []
  | n :: rest =>
    if seen.contains n then distinctFrom seen rest else n :: distinctFrom (n :: seen) rest

/-- The names of the subject, each once. -/
def names (r : SigningRequest) : List String := distinctFrom [] r.allNames

end SigningRequest

/-- Why some PEM holds no signing request. -/
inductive RequestFault where
  | pem (fault : Pem.Fault)
  | der
deriving DecidableEq

def RequestFault.message : RequestFault → String
  | .pem fault => fault.message
  | .der => "<x509>"

/-- The names of the subject of a signing request in PEM. -/
def subjectNames (pem : Bytes) : Except RequestFault (List String) :=
  match Pem.first pem with
  | .error fault => .error (.pem fault)
  | .ok block =>
    match SigningRequest.ofDer? block.contents with
    | some r => .ok r.names
    | none => .error .der

end CertBroker.X509
