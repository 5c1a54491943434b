import CertBroker.Crypto.PrivateKey
import CertBroker.Net.Url
import CertBroker.Pem.Section
import CertBroker.Pki.Endpoint
import CertBroker.X509.Anchor

namespace CertBroker.Pki

structure Client where
  /-- Without slashes at the end. -/
  baseUrl : String
  /-- User name and password, which go with every request. -/
  login : Option (String × String) := none
deriving DecidableEq

/-- A key pair to present oneself with. -/
structure Identity where
  /-- The own certificate and those it was issued by. -/
  certificates : List Bytes
  form : Crypto.PrivateKey.Form
  key : Bytes
deriving DecidableEq

namespace Identity

def keyForm? : Pem.SectionKind → Option Crypto.PrivateKey.Form
  | .privateKey => some .named
  | .rsaPrivateKey => some .rsa
  | .ecPrivateKey => some .ellipticCurve
  | _ => none

/-- Certificates and keys, and nothing else; the last key counts. -/
def ofSections? (sections : List Pem.TlsSection) : Option Identity := do
  let keys := sections.filterMap fun s => (keyForm? s.kind).map (·, s.contents)
  let certificates := (sections.filter (·.kind = .certificate)).map (·.contents)
  let (form, key) ← keys.getLast?
  if certificates.isEmpty || keys.length + certificates.length ≠ sections.length then none
  else return { certificates, form, key }

/-- Reads PEM of certificates and of a key, each on lines of its own. -/
def ofPem? (certificate key : Bytes) : Option Identity :=
  let gap : Bytes := if certificate.getLast? = some 10 then [] else [10]
  match Pem.sections (certificate ++ gap ++ key) with
  | .ok sections => ofSections? sections
  | .error _ => none

/-- Whether the key is the one that the own certificate certifies. -/
def isUsable (i : Identity) : Bool :=
  match i.certificates.head?.bind X509.Anchor.subjectKey? with
  | some certified => Crypto.PrivateKey.publicKey? i.form i.key = some certified
  | none => false

end Identity

/-- Whether requests can be sent to URLs of a scheme. -/
def isWebScheme (scheme : String) : Bool := scheme = "http" || scheme = "https"

def checkBaseUrl [HostName.Rules] (s : String) : Except PkiError Unit :=
  match Net.Url.parse s with
  | .error _ => .error (.invalidConfig "Invalid base URL")
  | .ok url =>
    if isWebScheme url.scheme then .ok ()
    else .error (.invalidConfig ("Invalid base URL: unsupported scheme " ++ url.scheme))

/-- The certificates of a bundle, which has at least one. -/
def trustedCertificates (bundle : String) : Except PkiError (List Bytes) :=
  match Pem.sections (Utf8.encode bundle) with
  | .error _ => .error (.invalidConfig "Failed to parse CA bundle")
  | .ok sections =>
    let certificates := (sections.filter (·.kind = .certificate)).map (·.contents)
    if certificates.isEmpty then
      .error (.invalidConfig "Failed to parse CA bundle: no certificate found")
    else .ok certificates

/-- Whether a text names a proxy. A text without scheme or host may be one without the scheme. -/
def isProxy [HostName.Rules] (s : String) : Bool :=
  let withScheme : Bool :=
    match Net.Url.parse ("http://" ++ s) with
    | .ok url => url.hasHost
    | .error _ => false
  match Net.Url.parse s with
  | .ok url => url.hasHost || withScheme
  | .error .relative => withScheme
  | .error _ => false

def checkProxy [HostName.Rules] (s : String) : Except PkiError Unit :=
  if isProxy s then .ok () else .error (.invalidConfig "Invalid proxy URL")

/-- The key pair in the credentials, if they hold one. -/
def readIdentity : Credentials → Except PkiError (Option Identity)
  | .password _ _ => .ok none
  | .clientCertificate certificate key =>
    match Identity.ofPem? certificate key with
    | some i => .ok (some i)
    | none => .error (.invalidConfig "Failed to load TLS certificate")

/-- A request that could not be built. -/
def unbuilt : PkiError := .transport "builder error"

namespace Client

/-- Drops the slashes at the end. -/
def withoutLastSlashes (s : String) : String :=
  String.ofList ((s.toList.reverse.dropWhile (· == '/')).reverse)

/-- Constructs a client. What cannot be used is refused in the order base URL, trusted certificates,
proxy, client certificate; certificates and keys that are well framed and still useless are noticed
last. -/
def ofEndpoint [HostName.Rules] (e : Endpoint) (c : Credentials) : Except PkiError Client := do
  checkBaseUrl e.baseUrl
  let trusted ← match e.caBundle with
    | some bundle => trustedCertificates bundle
    | none => pure []
  match e.proxy with
  | some proxy => checkProxy proxy
  | none => pure ()
  let identity ← readIdentity c
  if trusted.all X509.Anchor.isTrustable && identity.all Identity.isUsable then
    return {
      baseUrl := withoutLastSlashes e.baseUrl
      login := match c with
        | .password username password => some (username, password)
        | .clientCertificate _ _ => none }
  else throw unbuilt

/-- A description that shows no secret part. -/
def summary (k : Client) : String :=
  "PkiClient \x7b base_url: " ++ Text.quoted k.baseUrl ++ ", .. \x7d"

theorem checkBaseUrl_eq_ok [HostName.Rules] {s : String} (h : checkBaseUrl s = .ok ()) :
    ∃ url, Net.Url.parse s = .ok url ∧ isWebScheme url.scheme = true := by
  unfold checkBaseUrl at h
  split at h
  next => cases h
  next url hparse =>
    split at h
    next hscheme => exact ⟨url, hparse, hscheme⟩
    next => cases h

theorem ofEndpoint_baseUrl [HostName.Rules] {e : Endpoint} {c : Credentials} {k : Client}
    (h : ofEndpoint e c = .ok k) :
    ∃ url, Net.Url.parse e.baseUrl = .ok url ∧ isWebScheme url.scheme = true := by
  apply checkBaseUrl_eq_ok
  cases hcheck : checkBaseUrl e.baseUrl with
  | ok u => rfl
  | error fault => simp [ofEndpoint, hcheck, bind, Except.bind] at h

end Client

end CertBroker.Pki
