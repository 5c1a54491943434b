import CertBroker.Dict
import CertBroker.Pki.Error
import CertBroker.Text.Quoted
import CertBroker.Text.Utf8

namespace CertBroker.Pki

inductive Credentials where
  | clientCertificate (certificate key : Bytes)
  | password (username password : String)
deriving DecidableEq

namespace Credentials

def tlsType : String := "kubernetes.io/tls"

def opaqueType : String := "Opaque"

def field (secret : String) (data : Dict Bytes) (key : String) : Except PkiError Bytes :=
  match data.get? key with
  | some value => .ok value
  | none => .error (.invalidConfig ("Missing " ++ key ++ " in secret " ++ secret))

def textField (secret : String) (data : Dict Bytes) (key : String) : Except PkiError String := do
  match Utf8.decode (← field secret data key) with
  | .ok text => .ok text
  | .error _ => .error (.invalidConfig (key ++ " in secret " ++ secret ++ " is not valid UTF-8"))

/-- Reads the data of a Secret by its type; a Secret without a type is opaque. -/
def ofSecret (secret : String) (type : Option String) (data : Dict Bytes) :
    Except PkiError Credentials :=
  let type := type.getD opaqueType
  if type = tlsType then do
    let certificate ← field secret data "tls.crt"
    let key ← field secret data "tls.key"
    return .clientCertificate certificate key
  else if type = opaqueType then do
    let username ← textField secret data "username"
    let password ← textField secret data "password"
    return .password username password
  else .error (.invalidConfig
    ("Unsupported secret type " ++ Text.quoted type ++ " for secret " ++ secret))

/-- A description that shows no secret part. -/
def summary : Credentials → String
  | .clientCertificate _ _ => "ClientCertificate \x7b .. \x7d"
  | .password username _ => "Password \x7b username: " ++ Text.quoted username ++ ", .. \x7d"

end Credentials

end CertBroker.Pki
