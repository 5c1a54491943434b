import CertBroker.Pass.Basic
import CertBroker.Settings

namespace CertBroker.Issuer

/-- A setting that is not empty. -/
def nonEmpty (s : Option String) : Option String := s.filter fun v => !v.isEmpty

/-- How to reach the issuer's PKI. -/
def endpoint (i : Issuer) (settings : Settings) : Pki.Endpoint where
  baseUrl := i.spec.url
  caBundle := nonEmpty i.spec.caBundle
  skipTlsVerify := i.spec.skipTLSVerify
  proxy := nonEmpty i.spec.proxy
  timeout := settings.pkiTimeout

/-- The credentials in the issuer's Secret. -/
def credentialsIn (i : Issuer) (s : Secret) : Except Failure Pki.Credentials :=
  (Pki.Credentials.ofSecret i.spec.authSecretName s.type (s.data.getD .empty)).mapError
    fun e => .credentials e.message

def openSession (i : Issuer) (settings : Settings) : Attempt Pki.Session := do
  let ns := i.secretNamespace settings.clusterResourceNamespace
  let name := i.spec.authSecretName
  match ← Ask.secret ns name with
  | none => throw (.credentials ("secret " ++ ns ++ "/" ++ name ++ " not found"))
  | some secret => do
    let credentials ← Attempt.ofExcept (i.credentialsIn secret)
    let session : Pki.Session := ⟨i.endpoint settings, credentials⟩
    Attempt.ofPki (Ask.put (.openSession session))
    return session

end CertBroker.Issuer

namespace CertBroker.Pki.Session

def call (s : Session) (c : Call) : Attempt c.Reply := Attempt.ofPki (Ask.put (.call s c))

end CertBroker.Pki.Session
