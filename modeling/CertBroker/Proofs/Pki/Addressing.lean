import CertBroker.Proofs.Pki.BaseUrl
import CertBroker.Proofs.Pki.Trouble
import Mathlib.Data.Bool.AllAny

namespace CertBroker

open Net Net.Url

namespace Pki

variable {e : Endpoint} {c : Credentials} {k : Client} {call : Call} {message : Message}
  {error : PkiError}

/-- User name and password, unless there is a key pair. -/
def Credentials.login? : Credentials → Option (String × String)
  | .password username word => some (username, word)
  | .clientCertificate _ _ => none

/-- Whether a message to a URL with a login can be sent. -/
structure Sendable (url : Url) (login : Option (String × String)) : Prop where
  host : url.hasHost = true
  address : isAddressable url = true
  login : ∀ l ∈ login, isHeaderValue l.1 = true ∧ isHeaderValue l.2 = true

def Client.messageTo (k : Client) (call : Call) (url : Url) : Message :=
  { method := call.method, url := url, login := k.login, body := call.submission?.map (·.toJson) }

/-- User and password are no part of what is sent, and the end may be missing. -/
theorem isAddressable_iff {url : Url} (hhost : url.hasHost = true) (hquery : url.query = none)
    (hfragment : url.fragment = none) : isAddressable url = true ↔
      (∀ ch ∈ url.hostText.toList, isUnaddressable ch = false) ∧
        (url.scheme ++ "://" ++ url.hostText ++ url.pathText).utf8ByteSize ≤
          Http.Target.maxSize := by
  have hsome : url.host.isSome = true := by
    cases hnone : url.host with
    | none => simp [hasHost, hnone] at hhost
    | some host => rfl
  have htext : ({ url with username := "", password := "" } : Url).text =
      url.scheme ++ "://" ++ url.hostText ++ url.pathText := by
    have hstart : (":" : String) ++ "//" = "://" := by decide
    have hwritten : ({ url with username := "", password := "" } : Url).text =
        url.scheme ++ (":" ++ ("//" ++ (url.hostText ++ url.pathText))) := by
      simp only [text, hsome, hquery, hfragment, userText, Url.hostText, Url.pathText]
      simp [String.append_assoc]
    rw [hwritten, ← hstart]
    simp only [String.append_assoc]
  rw [isAddressable, htext]
  simp

/-- A path that is put after a folder as it stands. -/
structure IsFixed (rest : List Char) : Prop where
  visible : ∀ c ∈ rest, isBlank c = false ∧ c ≠ '?' ∧ c ≠ '#'
  plain : ∀ s ∈ pieces rest, isDoubleDot s = false ∧ isDot s = false
  text : textOf (pieces rest) = '/' :: rest
  last : ∀ c ∈ ('/' :: rest).getLast?, c ≠ '/'

theorem Call.exists_isFixed (h : ∀ id, call ≠ .poll id) :
    ∃ rest, call.path.toList = '/' :: rest ∧ IsFixed rest := by
  have hsubmit : IsFixed "api/v1/requests/submit".toList :=
    ⟨List.all_iff_forall_prop.mp (by decide), by decide, by decide, by rintro c ⟨⟩; decide⟩
  have hhealth : IsFixed "api/v1/security/principals/self".toList :=
    ⟨List.all_iff_forall_prop.mp (by decide), by decide, by decide, by rintro c ⟨⟩; decide⟩
  have hpath : "/api/v1/requests/submit".toList = '/' :: "api/v1/requests/submit".toList := by
    decide
  cases call with
  | checkHealth => exact ⟨_, by decide, hhealth⟩
  | enroll request => exact ⟨_, hpath, hsubmit⟩
  | renew certificateId csr => exact ⟨_, hpath, hsubmit⟩
  | poll id => exact absurd rfl (h id)
  | revoke certificate reason => exact ⟨_, hpath, hsubmit⟩

theorem IsFixed.inFolder {rest : List Char} (h : IsFixed rest) (base : Url)
    (folder : List (List Char)) :
    (base.inFolder folder (ended rest)).pathText.toList = textOf folder ++ '/' :: rest ∧
      (base.inFolder folder (ended rest)).query = none ∧
      (base.inFolder folder (ended rest)).fragment = none := by
  have hsplit : splitEnd (ended rest) = (rest, []) := by
    rw [ended_of_visible fun c hc => (h.visible c hc).1]
    exact splitEnd_of_plain fun c hc => (h.visible c hc).2
  refine ⟨?_, ?_, ?_⟩
  · rw [toList_pathText_inFolder, hsplit, resolve_of_plain (pieces_ne_nil rest) h.plain,
      textOf_append, h.text]
  · rw [Url.inFolder, hsplit]
    rfl
  · rw [Url.inFolder, hsplit]
    rfl

theorem IsFixed.ne_bare_append {rest : List Char} (h : IsFixed rest) (cs : List Char) :
    cs ≠ bare cs ++ '/' :: rest := by
  intro heq
  obtain ⟨init, c, hlast⟩ := (List.eq_nil_or_concat' ('/' :: rest)).resolve_left (by simp)
  have hc : c ≠ '/' := h.last c (by rw [hlast, List.getLast?_concat]; rfl)
  have hbare : bare cs = cs := by
    rw [heq, hlast, ← List.append_assoc]
    exact List.rdropWhile_concat_neg _ _ _ (by simpa using hc)
  have hlength := congrArg List.length heq
  rw [hbare, List.length_append, List.length_cons] at hlength
  omega

/-- A message that carries a call to its place below a base. -/
structure Message.Reaches (m : Message) (base : Url) (c : Credentials) (call : Call) : Prop where
  method : m.method = call.method
  scheme : m.url.scheme = base.scheme
  host : m.url.host = base.host
  port : m.url.port = base.port
  path : m.url.pathText = Client.withoutLastSlashes base.pathText ++ call.path
  query : m.url.query = none
  login : m.login = c.login?
  body : m.body = call.submission?.map (·.toJson)

/-- Only a fault of the configuration is reported. -/
def OnlyConfig {α : Type} (outcome : Except PkiError α) : Prop :=
  ∀ error, outcome = .error error → ∃ detail, error = .invalidConfig detail

theorem onlyConfig_trustedCertificates (bundle : String) :
    OnlyConfig (trustedCertificates bundle) := by
  intro error h
  unfold trustedCertificates at h
  simp only at h
  repeat' split at h
  all_goals first | (cases h; exact ⟨_, rfl⟩) | cases h

theorem onlyConfig_readIdentity (c : Credentials) : OnlyConfig (readIdentity c) := by
  intro error h
  unfold readIdentity at h
  repeat' split at h
  all_goals first | (cases h; exact ⟨_, rfl⟩) | cases h

/-- The certificates to trust besides, if there is a bundle of them. -/
def Endpoint.trusted (e : Endpoint) : Except PkiError (List Bytes) :=
  match e.caBundle with
  | some bundle => trustedCertificates bundle
  | none => .ok []

theorem onlyConfig_trusted (e : Endpoint) : OnlyConfig e.trusted := by
  intro error h
  unfold Endpoint.trusted at h
  split at h
  next => exact onlyConfig_trustedCertificates _ _ h
  next => cases h

section

variable [HostName.Rules]

/-- However a call goes, one message is sent, and what is answered is read. -/
def SendsOnly (k : Client) (call : Call) (message : Message) : Prop :=
  ∀ events outcome, Program.Trace (k.call call).run events outcome ↔
    ∃ answer, events = [⟨message, answer⟩] ∧ outcome = readAnswer call.readReply answer

/-- A call fails, and no message is sent. -/
def SendsNothing (k : Client) (call : Call) : Prop :=
  ∀ events outcome, Program.Trace (k.call call).run events outcome ↔
    events = [] ∧ outcome = .error unbuilt

theorem sendsOnly_iff : SendsOnly k call message ↔ k.message? call = some message :=
  ⟨fun h => Client.message?_of_trace ((h _ _).mpr ⟨none, rfl, rfl⟩),
    fun h _ _ => Client.trace_call_iff h⟩

theorem sends (k : Client) (call : Call) :
    SendsNothing k call ∨ ∃ message, SendsOnly k call message := by
  cases h : k.message? call with
  | none =>
    have hcall : (k.call call).run = .done (.error unbuilt) := by
      rw [Client.call, h]
      rfl
    exact .inl fun _ _ => by rw [hcall, Program.trace_done_iff]
  | some message => exact .inr ⟨message, sendsOnly_iff.mpr h⟩

theorem onlyConfig_checkBaseUrl (s : String) : OnlyConfig (checkBaseUrl s) := by
  intro error h
  unfold checkBaseUrl at h
  repeat' split at h
  all_goals first | (cases h; exact ⟨_, rfl⟩) | cases h

theorem onlyConfig_checkProxy (s : String) : OnlyConfig (checkProxy s) := by
  intro error h
  unfold checkProxy at h
  split at h
  next => cases h
  next => cases h; exact ⟨_, rfl⟩

def Endpoint.checkedProxy (e : Endpoint) : Except PkiError Unit :=
  match e.proxy with
  | some proxy => checkProxy proxy
  | none => .ok ()

theorem onlyConfig_checkedProxy (e : Endpoint) : OnlyConfig e.checkedProxy := by
  intro error h
  unfold Endpoint.checkedProxy at h
  split at h
  next => exact onlyConfig_checkProxy _ _ h
  next => cases h

theorem Client.ofEndpoint_eq (e : Endpoint) (c : Credentials) :
    ofEndpoint e c = (do
      checkBaseUrl e.baseUrl
      let trusted ← e.trusted
      e.checkedProxy
      let identity ← readIdentity c
      if trusted.all X509.Anchor.isTrustable && identity.all Identity.isUsable then
        return { baseUrl := withoutLastSlashes e.baseUrl, login := c.login? }
      else throw unbuilt) := by
  unfold ofEndpoint Endpoint.trusted Endpoint.checkedProxy
  cases e.caBundle <;> cases e.proxy <;> cases c <;> rfl

/-- Unless a client is made, the configuration is at fault, or else trusted certificates or a key
pair are of no use although they can be read. -/
theorem Client.ofEndpoint_cases (e : Endpoint) (c : Credentials) :
    ofEndpoint e c = .ok { baseUrl := withoutLastSlashes e.baseUrl, login := c.login? } ∨
      ∃ error, ofEndpoint e c = .error error ∧ ((∃ detail, error = .invalidConfig detail) ∨
        error = unbuilt ∧ ∃ base, parse e.baseUrl = .ok base ∧ isWebScheme base.scheme = true) := by
  rw [ofEndpoint_eq]
  cases hcheck : checkBaseUrl e.baseUrl with
  | error error => exact .inr ⟨error, rfl, .inl (onlyConfig_checkBaseUrl _ _ hcheck)⟩
  | ok =>
    cases htrusted : e.trusted with
    | error error => exact .inr ⟨error, rfl, .inl (onlyConfig_trusted _ _ htrusted)⟩
    | ok trusted =>
      cases hproxy : e.checkedProxy with
      | error error => exact .inr ⟨error, rfl, .inl (onlyConfig_checkedProxy _ _ hproxy)⟩
      | ok =>
        cases hidentity : readIdentity c with
        | error error => exact .inr ⟨error, rfl, .inl (onlyConfig_readIdentity _ _ hidentity)⟩
        | ok identity =>
          by_cases huse : (trusted.all X509.Anchor.isTrustable &&
              identity.all Identity.isUsable) = true
          · exact .inl (if_pos huse)
          · exact .inr ⟨unbuilt, if_neg huse, .inr ⟨rfl, checkBaseUrl_eq_ok hcheck⟩⟩

theorem Client.ofEndpoint_eq_ok (h : ofEndpoint e c = .ok k) :
    k = { baseUrl := withoutLastSlashes e.baseUrl, login := c.login? } := by
  rcases ofEndpoint_cases e c with hk | ⟨error, herror, -⟩
  · exact Except.ok.inj (h.symm.trans hk)
  · cases h.symm.trans herror

theorem Client.refused (h : ofEndpoint e c = .error error) :
    (∃ detail, error = .invalidConfig detail) ∨
      error = unbuilt ∧ ∃ base, parse e.baseUrl = .ok base ∧ isWebScheme base.scheme = true := by
  rcases ofEndpoint_cases e c with hk | ⟨fault, hfault, hcause⟩
  · cases h.symm.trans hk
  · cases h.symm.trans hfault
    exact hcause

theorem Client.message?_eq_some_iff : k.message? call = some message ↔
    ∃ url, parse (k.baseUrl ++ call.path) = .ok url ∧ Sendable url k.login ∧
      message = k.messageTo call url := by
  unfold message?
  split
  next fault hparse => simp [hparse]
  next url hparse =>
    have hlogin : (k.login.all fun l => isHeaderValue l.1 && isHeaderValue l.2) = true ↔
        ∀ l ∈ k.login, isHeaderValue l.1 = true ∧ isHeaderValue l.2 = true := by
      simp [Option.all_eq_true]
    split
    next hsend =>
      simp only [Bool.and_eq_true, hlogin] at hsend
      simp [hparse, Client.messageTo, eq_comm, Sendable.mk hsend.1.1 hsend.1.2 hsend.2]
    next hsend =>
      simp only [Bool.and_eq_true, hlogin] at hsend
      have hnot : ¬ Sendable url k.login := fun h => hsend ⟨⟨h.host, h.address⟩, h.login⟩
      simp [hparse, hnot]

/-- What it takes for a call to reach its place below a base. -/
structure Usable (e : Endpoint) (c : Credentials) (base : Url) (call : Call) : Prop where
  fits : IsBase e.baseUrl
  host : ∀ ch ∈ base.hostText.toList, isUnaddressable ch = false
  size : (base.scheme ++ "://" ++ base.hostText ++
    (Client.withoutLastSlashes base.pathText ++ call.path)).utf8ByteSize ≤ Http.Target.maxSize
  login : ∀ l ∈ c.login?, isHeaderValue l.1 = true ∧ isHeaderValue l.2 = true

/-- A client is made of any base URL of the web. What it sends for a call other than a poll reaches
its place below the base exactly if paths can be put after the base, the host can be addressed, the
URL is short enough, and user name and password can be headers. -/
theorem reaches_iff_usable (e : Endpoint) (c : Credentials) :
    (∀ error, Client.ofEndpoint e c = .error error → (∃ detail, error = .invalidConfig detail) ∨
      error = unbuilt ∧ ∃ base, parse e.baseUrl = .ok base ∧ isWebScheme base.scheme = true) ∧
    ∀ k, Client.ofEndpoint e c = .ok k →
      ∃ base, parse e.baseUrl = .ok base ∧ isWebScheme base.scheme = true ∧
        ∀ call, (∀ id, call ≠ .poll id) →
          (SendsNothing k call ∨ ∃ m, SendsOnly k call m) ∧
          ((∃ m, SendsOnly k call m ∧ m.Reaches base c call) ↔ Usable e c base call) := by
  refine ⟨fun _ => Client.refused, fun k h => ?_⟩
  obtain ⟨base, hparse, hweb⟩ := Client.ofEndpoint_baseUrl h
  refine ⟨base, hparse, hweb, fun call hcall => ⟨sends k call, ?_⟩⟩
  cases Client.ofEndpoint_eq_ok h
  obtain ⟨rest, hpath, hfixed⟩ := Call.exists_isFixed hcall
  simp only [sendsOnly_iff, Client.message?_eq_some_iff]
  cases course hparse hweb with
  | lost unfit read =>
    obtain ⟨fault, hread⟩ := read _ _ hpath
    refine iff_of_false ?_ fun hu => unfit hu.fits
    rintro ⟨m, ⟨url, hurl, -⟩, -⟩
    cases hread.symm.trans hurl
  | hidden unfit ends read =>
    obtain ⟨ending, hread⟩ := read _ _ hpath
    refine iff_of_false ?_ fun hu => unfit hu.fits
    rintro ⟨m, ⟨url, hurl, -, rfl⟩, hreaches⟩
    obtain rfl := Except.ok.inj (hread.symm.trans hurl)
    have hpathText : base.pathText = Client.withoutLastSlashes base.pathText ++ call.path :=
      hreaches.path
    have htext := congrArg String.toList hpathText
    rw [String.toList_append, Client.toList_withoutLastSlashes, hpath] at htext
    exact hfixed.ne_bare_append _ htext
  | found folder fits read =>
    have hread := read _ _ hpath
    obtain ⟨htext, hquery, hfragment⟩ := hfixed.inFolder base folder
    constructor
    · rintro ⟨m, ⟨url, hurl, hsend, rfl⟩, hreaches⟩
      obtain rfl := Except.ok.inj (hread.symm.trans hurl)
      have hpathText : (base.inFolder folder (ended rest)).pathText =
          Client.withoutLastSlashes base.pathText ++ call.path := hreaches.path
      have hreached := congrArg String.toList hpathText
      rw [htext, String.toList_append, Client.toList_withoutLastSlashes, hpath] at hreached
      have hfits := fits.mpr (List.append_cancel_right hreached)
      obtain ⟨haddress, hsize⟩ := (isAddressable_iff hsend.host hquery hfragment).mp hsend.address
      refine ⟨hfits, haddress, ?_, hsend.login⟩
      rw [← hpathText]
      exact hsize
    · intro hu
      have hpathText : (base.inFolder folder (ended rest)).pathText =
          Client.withoutLastSlashes base.pathText ++ call.path := by
        apply String.toList_injective
        rw [htext, String.toList_append, Client.toList_withoutLastSlashes, hpath, fits.mp hu.fits]
      have hbase := hasHost_of_parse hparse hweb
      have hhost : (base.inFolder folder (ended rest)).hasHost = true := hbase
      have haddress := (isAddressable_iff hhost hquery hfragment).mpr
        ⟨hu.host, by rw [hpathText]; exact hu.size⟩
      exact ⟨_, ⟨_, hread, ⟨hhost, haddress, hu.login⟩, rfl⟩,
        rfl, rfl, rfl, rfl, hpathText, hquery, rfl, rfl⟩

end

def samplePki (baseUrl : String) : Endpoint := { baseUrl }

def samplePassword : Credentials := .password "svc" "secret"

def sampleClient (baseUrl : String) : Client := { baseUrl, login := some ("svc", "secret") }

def sampleBase : Url :=
  { scheme := "https", host := some (.name "pki.test"), path := .segments ["pki", ""] }

theorem isBase_samplePki : IsBase "https://pki.test/pki/" := by
  refine ⟨List.all_iff_forall_prop.mp (by decide), by decide, fun u hu => ?_⟩
  have hparse : parse (Client.withoutLastSlashes "https://pki.test/pki/" ++ "/") =
      .ok sampleBase := by decide +kernel
  obtain rfl := Except.ok.inj (hparse.symm.trans hu)
  decide

theorem reaches_of_samplePki : ∃ k m,
    Client.ofEndpoint (samplePki "https://pki.test/pki/") samplePassword = .ok k ∧
      SendsOnly k .checkHealth m ∧ m.Reaches sampleBase samplePassword .checkHealth := by
  have hclient : Client.ofEndpoint (samplePki "https://pki.test/pki/") samplePassword =
      .ok (sampleClient "https://pki.test/pki") := by decide +kernel
  have hbase : parse "https://pki.test/pki/" = .ok sampleBase := by decide +kernel
  obtain ⟨base, hparse, -, hcalls⟩ := (reaches_iff_usable _ _).2 _ hclient
  obtain rfl := Except.ok.inj (hbase.symm.trans hparse)
  obtain ⟨m, hsends, hreaches⟩ := (hcalls .checkHealth (by simp)).2.mpr
    ⟨isBase_samplePki, List.all_iff_forall_prop.mp (by decide), by decide, by decide⟩
  exact ⟨_, m, hclient, hsends, hreaches⟩

/-- Below a base with a query the path of a call becomes part of the query. -/
theorem reaches_of_query : ∃ k m,
    Client.ofEndpoint (samplePki "https://pki.test/pki?tenant=a") samplePassword = .ok k ∧
      SendsOnly k .checkHealth m ∧ m.url.pathText = "/pki" ∧
      m.url.query = some "tenant=a/api/v1/security/principals/self" := by
  refine ⟨sampleClient "https://pki.test/pki?tenant=a", ?_⟩
  have hmessage : (sampleClient "https://pki.test/pki?tenant=a").message? .checkHealth = some
      { method := .get, body := none, login := some ("svc", "secret")
        url := { scheme := "https", host := some (.name "pki.test"), path := .segments ["pki"]
                 query := some "tenant=a/api/v1/security/principals/self" } } := by
    decide +kernel
  exact ⟨_, by decide +kernel, sendsOnly_iff.mpr hmessage, by decide, rfl⟩

end Pki

end CertBroker
