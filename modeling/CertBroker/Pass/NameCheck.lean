import CertBroker.Pass.Basic
import CertBroker.Text.Blank
import CertBroker.X509.SigningRequest

namespace CertBroker.NameCheck

def dnsPort : Nat := 53

/-- Brackets at the outer ends. -/
def withoutBrackets (s : String) : String :=
  let cs := s.toList.dropWhile (· == '[')
  String.ofList (cs.reverse.dropWhile (· == ']')).reverse

/-- Reads an address with or without a port. -/
def server? (s : String) : Except Failure Net.SocketAddress :=
  let s := Text.trim s
  match Net.SocketAddress.parse? s with
  | some a => .ok a
  | none =>
    match Net.IpAddress.parse? (withoutBrackets s) with
    | some ip => .ok { ip, port := dnsPort }
    | none => .error (.invalidConfig ("invalid DNS checker server " ++ Text.quoted s))

/-- The names of a signing request in PEM. -/
def names? (csr : Bytes) : Except Failure (List String) :=
  (X509.subjectNames csr).mapError fun fault => .invalidCsr fault.message

/-- What a lookup means for the check; the server is named as it was configured. -/
def verdict (server name : String) : Lookup → Except Failure Unit
  | .found => .ok ()
  | .failed detail =>
    .error (.dnsValidation ("could not resolve " ++ name ++ " on " ++ server ++ ": " ++ detail))
  | .noAnswer =>
    .error (.dnsValidation ("timed out resolving " ++ name ++ " on " ++ server))

/-- The last label of a name of nonempty labels, in small letters; a full stop may end the name. -/
def topLabel? (name : String) : Option String :=
  let labels := name.toList.splitOn '.'
  let labels := if labels.getLast? = some [] then labels.dropLast else labels
  if labels.any (·.isEmpty) then none
  else labels.getLast?.map fun cs => String.ofList (cs.map Char.toLower)

/-- Looks up a name by a query, unless the answer is known beforehand: an address stands for
itself, and of the names with a reserved last label some are local and some never exist. -/
def resolve (query : String → Lookup) (name : String) : Lookup :=
  match Net.IpAddress.parse? name with
  | some _ => .found
  | none =>
    match topLabel? name with
    | some "localhost" => .found
    | some "invalid" => .failed "reserved name"
    | some "onion" => .failed "reserved name"
    | _ => query name

/-- Looks up names in order. -/
def lookUpAll (server : String) (address : Net.SocketAddress) (timeout : Nat) :
    List String → Attempt Unit
  | [] => pure ()
  | name :: rest => do
    let outcome ← Attempt.lift (Ask.put (.lookUp address name timeout))
    Attempt.ofExcept (verdict server name outcome)
    lookUpAll server address timeout rest

/-- Looks up every name of a signing request; `timeout` holds for each name. -/
def run (server : String) (csr : Bytes) (timeout : Nat) : Attempt Unit := do
  let address ← Attempt.ofExcept (server? server)
  let names ← Attempt.ofExcept (names? csr)
  lookUpAll server address timeout names

end CertBroker.NameCheck
