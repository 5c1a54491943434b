import CertBroker.Pki.Credentials

namespace CertBroker.Pki

structure Endpoint where
  baseUrl : String
  /-- Certificates to trust besides the standard ones, as PEM. -/
  caBundle : Option String := none
  skipTlsVerify : Bool := false
  proxy : Option String := none
  /-- In seconds. -/
  timeout : Nat := 30
deriving DecidableEq

end CertBroker.Pki
