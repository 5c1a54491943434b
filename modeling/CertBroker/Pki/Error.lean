
namespace CertBroker

/-- A failed PKI call or an unusable client. -/
inductive PkiError where
  /-- The request could not be sent or its answer not received. -/
  | transport (detail : String)
  | authentication (detail : String)
  /-- The PKI understood the request and refused it. -/
  | rejected (code message : String)
  | notFound (detail : String)
  /-- The answer is not the JSON expected. -/
  | unreadable (detail : String)
  | invalidConfig (detail : String)
  | invalidResponse (detail : String)
deriving DecidableEq, Repr

namespace PkiError

def message : PkiError → String
  | .transport d => "HTTP error: " ++ d
  | .authentication d => "Authentication failed: " ++ d
  | .rejected code m => "PKI rejected the request (" ++ code ++ "): " ++ m
  | .notFound d => "Not found: " ++ d
  | .unreadable d => "Serialization error: " ++ d
  | .invalidConfig d => "Invalid configuration: " ++ d
  | .invalidResponse d => "Invalid response: " ++ d

/-- Whether the PKI itself refused, with a code of its own. -/
def isRejection : PkiError → Bool
  | .rejected _ _ => true
  | _ => false

end PkiError

end CertBroker
