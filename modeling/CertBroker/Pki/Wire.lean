import CertBroker.Json.Parser
import CertBroker.Net.Http
import CertBroker.Net.LatinName
import CertBroker.Pki.Client
import CertBroker.Pki.Operation
import CertBroker.Program

namespace CertBroker.Pki

open Json

structure Message where
  method : Http.Method
  url : Net.Url
  /-- The values of the headers `X-API-ID` and `X-API-KEY`. -/
  login : Option (String × String)
  body : Option Json
deriving DecidableEq

namespace Message

def accept : String := "application/json"

def contentType? (m : Message) : Option String := m.body.map fun _ => "application/json"

end Message

/-- Messages and what is made of their answers. A message has no answer if the PKI cannot be
reached. -/
abbrev Exchange (α : Type) : Type :=
  ExceptT PkiError (Program Message fun _ => Option Http.Response) α

namespace Call

def method : Call → Http.Method
  | .checkHealth => .get
  | .poll _ => .get
  | _ => .post

/-- The path below the base URL, as it is put after it. -/
def path : Call → String
  | .checkHealth => "/api/v1/security/principals/self"
  | .poll id => "/api/v1/requests/" ++ id
  | _ => "/api/v1/requests/submit"

/-- Reads the answer to a call that went well. -/
def readReply : (c : Call) → Json → Option c.Reply
  | .checkHealth, _ => some ()
  | .enroll _, j => (Request.ofJson? j).map (·.id)
  | .renew _ _, j => (Request.ofJson? j).map (·.id)
  | .poll _, j => Request.ofJson? j
  | .revoke _ _, j => (Request.ofJson? j).map fun _ => ()

end Call

def isHeaderValue (s : String) : Bool :=
  s.toList.all fun c => c == '\t' || (32 ≤ c.toNat && c.toNat != 127)

/-- A character of a host name with which no request can be addressed. -/
def isUnaddressable (c : Char) : Bool :=
  c == '"' || c.toNat == 0x60 || c.toNat == 0x7b || c.toNat == 0x7d

/-- Whether a request can be sent to a URL. User name and password are not part of what is sent. -/
def isAddressable (url : Net.Url) : Bool :=
  !url.hostText.toList.any isUnaddressable
    && { url with username := "", password := "" : Net.Url }.text.utf8ByteSize ≤ Http.Target.maxSize

def Client.message? [HostName.Rules] (k : Client) (c : Call) : Option Message :=
  match Net.Url.parse (k.baseUrl ++ c.path) with
  | .error _ => none
  | .ok url =>
    if url.hasHost && isAddressable url
        && k.login.all fun l => isHeaderValue l.1 && isHeaderValue l.2 then
      some { method := c.method, url, login := k.login, body := c.submission?.map (·.toJson) }
    else none

/-- At most so many characters of an answer are shown. -/
def shownCharacters : Nat := 500

def errorOf (status : Nat) (body : String) : PkiError :=
  if status = 401 || status = 403 then
    .authentication (Http.statusText status ++ " - " ++ body)
  else match (Json.parse? body).bind Refusal.ofJson? with
    | some refusal => .rejected refusal.error refusal.message
    | none =>
      if status = 404 then .notFound body
      else .invalidResponse (Http.statusText status ++ " - "
        ++ String.ofList (body.toList.take shownCharacters))

/-- Reads an answer; bytes that are not UTF-8 are replaced. -/
def readAnswer (read : Json → Option α) : Option Http.Response → Except PkiError α
  | none => .error (.transport "error sending request")
  | some response =>
    let body := Utf8.lossy response.body
    if response.isSuccess then
      match (Json.parse? body).bind read with
      | some value => .ok value
      | none => .error (.unreadable "unexpected answer")
    else .error (errorOf response.status body)

/-- Carries out a call. What cannot be sent fails like what is not answered. -/
def Client.call [HostName.Rules] (k : Client) (c : Call) : Exchange c.Reply :=
  match k.message? c with
  | none => throw unbuilt
  | some message => ExceptT.mk do return readAnswer c.readReply (← Program.put message)

theorem errorOf_isRejection {status : Nat} {body : String}
    (h : (Json.parse? body).bind Refusal.ofJson? = none) :
    (errorOf status body).isRejection = false := by
  unfold errorOf
  rw [h]
  split
  · rfl
  · dsimp only
    split <;> rfl

theorem readAnswer_success_isRejection {read : Json → Option α} {response : Http.Response}
    {e : PkiError} (hs : response.isSuccess = true)
    (h : readAnswer read (some response) = .error e) : e.isRejection = false := by
  simp only [readAnswer, hs, if_true] at h
  split at h
  next => cases h
  next => cases h; rfl

end CertBroker.Pki
