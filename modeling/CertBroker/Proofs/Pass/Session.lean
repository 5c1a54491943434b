import CertBroker.Pass.NameCheck
import CertBroker.Proofs.Pass.Yield

namespace CertBroker

namespace Issuer

def secretQuestion (i : Issuer) (settings : Settings) : Ask :=
  .readSecret (i.secretNamespace settings.clusterResourceNamespace) i.spec.authSecretName

/-- What can come of making a client. -/
inductive Opens (i : Issuer) (settings : Settings) :
    List Event → Except Failure Pki.Session → Prop
  | unread (f : Failure) : Opens i settings [⟨i.secretQuestion settings, .error f⟩] (.error f)
  | missing : Opens i settings [⟨i.secretQuestion settings, .ok none⟩]
      (.error (.credentials ("secret " ++ i.secretNamespace settings.clusterResourceNamespace ++ "/"
        ++ i.spec.authSecretName ++ " not found")))
  | unusable {secret : Secret} {f : Failure} (h : i.credentialsIn secret = .error f) :
      Opens i settings [⟨i.secretQuestion settings, .ok (some secret)⟩] (.error f)
  | refused {secret : Secret} {c : Pki.Credentials} (h : i.credentialsIn secret = .ok c)
      (e : PkiError) :
      Opens i settings [⟨i.secretQuestion settings, .ok (some secret)⟩,
        ⟨.openSession ⟨i.endpoint settings, c⟩, .error e⟩] (.error (.pki e))
  | opened {secret : Secret} {c : Pki.Credentials} (h : i.credentialsIn secret = .ok c) :
      Opens i settings [⟨i.secretQuestion settings, .ok (some secret)⟩,
        ⟨.openSession ⟨i.endpoint settings, c⟩, .ok ()⟩] (.ok ⟨i.endpoint settings, c⟩)

theorem opens_of_yields {i : Issuer} {settings : Settings} {events : List Event}
    {outcome : Except Failure Pki.Session} (h : (i.openSession settings).Yields events outcome) :
    i.Opens settings events outcome := by
  simp only [openSession, Attempt.yields_bind, Attempt.yields_secret] at h
  rcases h with ⟨f, rfl, rfl⟩ | ⟨found, _, rest, rfl, rfl, h⟩
  · exact .unread f
  cases found with
  | none =>
    obtain ⟨rfl, rfl⟩ := Attempt.yields_throw.mp h
    exact .missing
  | some secret =>
    simp only [Attempt.yields_bind, Attempt.yields_ofExcept, Attempt.yields_ofPki,
      Attempt.yields_pure] at h
    rcases h with ⟨f, ⟨rfl, hc⟩, rfl⟩ | ⟨c, _, _, rfl, ⟨rfl, hc⟩, h⟩
    · exact .unusable hc.symm
    rcases h with ⟨f, ⟨made, hm, hf⟩, rfl⟩ | ⟨_, _, _, rfl, ⟨made, hm, hf⟩, rfl, rfl⟩
    · obtain ⟨e, rfl, rfl⟩ := mapError_eq_error.mp hf.symm
      cases Ask.trace_put_iff.mp hm
      exact .refused hc.symm e
    · cases mapError_eq_ok.mp hf.symm
      cases Ask.trace_put_iff.mp hm
      exact .opened hc.symm

variable {i : Issuer} {settings : Settings} {events : List Event}
  {outcome : Except Failure Pki.Session}

theorem Opens.question (h : i.Opens settings events outcome) :
    ∀ e ∈ events, (∃ ns name, e.question = .readSecret ns name) ∨
      ∃ s, e.question = .openSession s := by
  cases h <;> simp [secretQuestion]

theorem Opens.not_asked {q : Ask} (h : i.Opens settings events outcome)
    (hr : ∀ ns name, q ≠ .readSecret ns name) (hs : ∀ s, q ≠ .openSession s) :
    ¬ Asked q events := by
  rintro ⟨e, he, rfl⟩
  rcases h.question e he with ⟨ns, name, hq⟩ | ⟨s, hq⟩
  · exact hr ns name hq
  · exact hs s hq

theorem Opens.quiet (h : i.Opens settings events outcome) : Quiet events := by
  cases h <;> simp [secretQuestion, Ask.disturbs, Ask.changesRequest, Ask.isCall]

theorem Opens.unwritten (h : i.Opens settings events outcome) : Unwritten events := by
  cases h <;> simp [secretQuestion, Ask.isWrite]

theorem Opens.alone (h : i.Opens settings events outcome) : Alone events := by
  cases h <;> simp [secretQuestion, Ask.concernsParent]

theorem Opens.built {s : Pki.Session} (h : i.Opens settings events (.ok s)) :
    (⟨.openSession s, .ok ()⟩ : Event) ∈ events := by
  cases h
  simp

theorem Opens.asks_secret (h : i.Opens settings events outcome) :
    Asked (i.secretQuestion settings) events := by
  cases h <;> simp

/-- Two ways of making a client that share the events of the first one, a failure, are one. -/
theorem Opens.eq_error {opening : List Event} {f : Failure}
    (h : i.Opens settings opening (.error f)) (h' : i.Opens settings events outcome)
    (hsub : opening ⊆ events) : outcome = .error f := by
  cases h <;> cases h' <;> simp_all [secretQuestion]

/-- The events of making a client stand among others only where a client is made. -/
theorem Opens.subset {opening all : List Event} {opened : Except Failure Pki.Session}
    (h : i.Opens settings opening opened) (hsub : opening ⊆ all)
    (hall : ∀ e ∈ all, e ∈ events ∨ (∀ ns name, e.question ≠ .readSecret ns name) ∧
      ∀ s, e.question ≠ .openSession s) : opening ⊆ events := by
  intro e he
  rcases hall e (hsub he) with hin | ⟨hr, hs⟩
  · exact hin
  · rcases h.question e he with ⟨ns, name, hq⟩ | ⟨s, hq⟩
    · exact absurd hq (hr ns name)
    · exact absurd hq (hs s)

end Issuer

namespace NameCheck

def resolved (address : Net.SocketAddress) (timeout : Nat) (name : String) : Event :=
  ⟨.lookUp address name timeout, .found⟩

theorem verdict_eq_ok {server name : String} {answer : Lookup} :
    verdict server name answer = .ok () ↔ answer = .found := by
  cases answer <;> simp [verdict]

/-- Names are looked up in order: all of them, or those up to the first that does not resolve. -/
theorem lookUpAll_yields {server : String} {address : Net.SocketAddress} {timeout : Nat}
    {names : List String} {events : List Event} {outcome : Except Failure Unit}
    (h : (lookUpAll server address timeout names).Yields events outcome) :
    (outcome = .ok () ∧ events = names.map (resolved address timeout)) ∨
      ∃ passed name rest answer f, names = passed ++ name :: rest ∧
        events = passed.map (resolved address timeout)
          ++ [⟨.lookUp address name timeout, answer⟩] ∧
        verdict server name answer = .error f ∧ outcome = .error f := by
  induction names generalizing events with
  | nil =>
    obtain ⟨rfl, rfl⟩ := Attempt.yields_pure.mp h
    exact .inl ⟨rfl, rfl⟩
  | cons name rest ih =>
    simp only [lookUpAll, Attempt.yields_bind, Attempt.yields_lift, Attempt.yields_ofExcept] at h
    rcases h with ⟨f, ⟨answer, _, hf⟩, rfl⟩ | ⟨answer, _, _, rfl, ⟨_, ha, hok⟩, h⟩
    · exact absurd hf (by simp)
    cases hok
    cases Ask.trace_put_iff.mp ha
    rcases h with ⟨f, ⟨rfl, hf⟩, rfl⟩ | ⟨_, _, _, rfl, ⟨rfl, hf⟩, h⟩
    · exact .inr ⟨[], name, rest, answer, f, rfl, rfl, hf.symm, rfl⟩
    · cases verdict_eq_ok.mp hf.symm
      rcases ih h with ⟨rfl, rfl⟩ | ⟨passed, next, rest', answer, f, rfl, rfl, hv, rfl⟩
      · exact .inl ⟨rfl, rfl⟩
      · exact .inr ⟨name :: passed, next, rest', answer, f, rfl, rfl, hv, rfl⟩

/-- What can come of the check of all subject names. -/
inductive Runs (server : String) (csr : Bytes) (timeout : Nat) :
    List Event → Except Failure Unit → Prop
  | unaddressed {f : Failure} (h : server? server = .error f) : Runs server csr timeout [] (.error f)
  | unread {address : Net.SocketAddress} {f : Failure} (ha : server? server = .ok address)
      (hn : names? csr = .error f) : Runs server csr timeout [] (.error f)
  | passed {address : Net.SocketAddress} {names : List String} (ha : server? server = .ok address)
      (hn : names? csr = .ok names) :
      Runs server csr timeout (names.map (resolved address timeout)) (.ok ())
  | stopped {address : Net.SocketAddress} {before after : List String} {name : String}
      {answer : Lookup} {f : Failure} (ha : server? server = .ok address)
      (hn : names? csr = .ok (before ++ name :: after))
      (hv : verdict server name answer = .error f) :
      Runs server csr timeout (before.map (resolved address timeout)
        ++ [⟨.lookUp address name timeout, answer⟩]) (.error f)

theorem Runs.question {server : String} {csr : Bytes} {timeout : Nat} {events : List Event}
    {outcome : Except Failure Unit} (h : Runs server csr timeout events outcome) :
    ∀ e ∈ events, ∃ address name, e.question = .lookUp address name timeout := by
  intro e he
  have hresolved {address : Net.SocketAddress} {names : List String}
      (he : e ∈ names.map (resolved address timeout)) :
      ∃ address name, e.question = .lookUp address name timeout := by
    obtain ⟨name, -, rfl⟩ := List.mem_map.mp he
    exact ⟨address, name, rfl⟩
  cases h with
  | unaddressed => cases he
  | unread => cases he
  | passed => exact hresolved he
  | @stopped address _ _ name =>
    rcases List.mem_append.mp he with he | he
    · exact hresolved he
    · cases List.mem_singleton.mp he
      exact ⟨address, name, rfl⟩

theorem Runs.quiet {server : String} {csr : Bytes} {timeout : Nat} {events : List Event}
    {outcome : Except Failure Unit} (h : Runs server csr timeout events outcome) :
    Quiet events := by
  intro e he
  obtain ⟨address, name, hq⟩ := h.question e he
  rw [hq]
  rfl

theorem Runs.unwritten {server : String} {csr : Bytes} {timeout : Nat} {events : List Event}
    {outcome : Except Failure Unit} (h : Runs server csr timeout events outcome) :
    Unwritten events := by
  intro e he
  obtain ⟨address, name, hq⟩ := h.question e he
  rw [hq]
  rfl

theorem runs_of_yields {server : String} {csr : Bytes} {timeout : Nat} {events : List Event}
    {outcome : Except Failure Unit} (h : (run server csr timeout).Yields events outcome) :
    Runs server csr timeout events outcome := by
  simp only [run, Attempt.yields_bind, Attempt.yields_ofExcept] at h
  rcases h with ⟨f, ⟨rfl, ha⟩, rfl⟩ | ⟨address, _, _, rfl, ⟨rfl, ha⟩, h⟩
  · exact .unaddressed ha.symm
  rcases h with ⟨f, ⟨rfl, hn⟩, rfl⟩ | ⟨names, _, _, rfl, ⟨rfl, hn⟩, h⟩
  · exact .unread ha.symm hn.symm
  rcases lookUpAll_yields h with ⟨rfl, rfl⟩ | ⟨before, name, after, answer, f, rfl, rfl, hv, rfl⟩
  · exact .passed ha.symm hn.symm
  · exact .stopped ha.symm hn.symm hv

end NameCheck

end CertBroker
