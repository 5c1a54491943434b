import CertBroker.Failure
import CertBroker.Json.Parser
import CertBroker.Json.Record
import CertBroker.Net.Http
import CertBroker.Program
import CertBroker.Text.Utf8

namespace CertBroker.Api

inductive Request where
  | read (target : Http.Target)
  /-- A merge patch. -/
  | merge (target : Http.Target) (patch : Json)
deriving DecidableEq

namespace Request

def method : Request → Http.Method
  | .read _ => .get
  | .merge _ _ => .patch

def target : Request → Http.Target
  | .read t => t
  | .merge t _ => t

def body? : Request → Option Json
  | .read _ => none
  | .merge _ patch => some patch

def contentType? : Request → Option String
  | .read _ => none
  | .merge _ _ => some "application/merge-patch+json"

end Request

/-- A talk with the API server. A request has no answer if the server cannot be reached. -/
abbrev Talk (α : Type) : Type :=
  ExceptT Failure (Program Request fun _ => Option Http.Response) α

/-- A kind of objects: its group, empty for built-in ones, its version, and its plural. -/
structure Kind where
  group : String
  version : String
  plural : String
deriving DecidableEq

namespace Kind

/-- The path of all objects of a kind, in one namespace or in all of them. -/
def path (k : Kind) (ns : Option String) : String :=
  (if k.group.isEmpty then "/api/" else "/apis/" ++ k.group ++ "/") ++ k.version
    ++ (match ns with
      | some ns => "/namespaces/" ++ ns
      | none => "")
    ++ "/" ++ k.plural

end Kind

/-- Where an object is; one of the whole cluster has no namespace. -/
structure Address where
  kind : Kind
  ns : Option String
  name : String
deriving DecidableEq

/-- The path of an object. An object without a name has none. -/
def Address.path (a : Address) : Except Failure String :=
  if a.name.isEmpty then .error (.cluster "a name is required")
  else .ok (a.kind.path a.ns ++ "/" ++ a.name)

def target (s : String) : Except Failure Http.Target :=
  match Http.Target.parse? s with
  | some t => .ok t
  | none => .error (.cluster "invalid request target")

def status? (j : Json) : Option ApiStatus := do
  match ← Json.record? ["status", "message", "reason", "code"] j with
  | [status, message, reason, code] =>
    return {
      status := ← Json.required Json.text? status
      message := ← Json.defaulted "" Json.text? message
      reason := ← Json.defaulted "" Json.text? reason
      code := (← Json.required (Json.intIn? 0 65535) code).toNat }
  | _ => none

/-- The failure an error answer stands for. An answer in another form is quoted. -/
def failureOf (status : Nat) (body : String) : Failure :=
  .api (((Json.parse? body).bind status?).getD {
    status := Http.statusText status
    message := Text.quoted body
    reason := "Failed to parse error data"
    code := status })

def readAnswer (read : Json → Option α) : Option Http.Response → Except Failure α
  | none => .error (.cluster "connection failed")
  | some response =>
    match Utf8.decode response.body with
    | .error fault => .error (.cluster fault.message)
    | .ok body =>
      if response.isError then .error (failureOf response.status body)
      else match (Json.parse? body).bind read with
        | some value => .ok value
        | none => .error (.cluster "unexpected answer")

def exchange (read : Json → Option α) (request : Request) : Talk α :=
  ExceptT.mk do return readAnswer read (← Program.put request)

def get (read : Json → Option α) (a : Address) : Talk α := do
  exchange read (.read (← target (← a.path)))

/-- Merges a patch into an object, or into one of its parts, and reads the object. -/
def patch (read : Json → Option α) (a : Address) (part : String) (change : Json) : Talk α := do
  exchange read (.merge (← target ((← a.path) ++ part ++ "?")) change)

/-- The part of an object that holds its status. -/
def statusPart : String := "/status"

end CertBroker.Api
