import CertBroker.Proofs.Program.Trace
import CertBroker.Pass.Basic
import Mathlib.Logic.Function.Basic

namespace CertBroker

/-- The objects of a namespace, each under its name. -/
structure Tenant (ns : String) where
  issuers : String → Option { i : Issuer // i.scope = .namespaced ∧ i.metadata.ns = some ns } :=
    fun _ => none
  secrets : String → Option Secret := fun _ => none
  certificates : String → Option { c : Certificate // c.metadata.ns = some ns } := fun _ => none
  ingresses : String → Option Ingress := fun _ => none
  requests : String → Option CertificateRequest := fun _ => none

structure Tenancies where
  tenants : (ns : String) → Tenant ns := fun _ => {}
  clusterIssuers : String → Option { i : Issuer // i.scope = .cluster } := fun _ => none

/-- The namespace of the object that a question writes to. -/
def Ask.written? : Ask → Option String
  | .storeRequest _ after => some after.metadata.nsText
  | .addFinalizer r => some r.metadata.nsText
  | .removeFinalizer r => some r.metadata.nsText
  | .storeAnnotations c => some c.metadata.nsText
  | .storeIssuerStatus i => i.ns
  | _ => none

/-- Everything about a cluster but its objects: which reads fail, what the clock, the names and the
PKI answer, and what the server makes of a write to a namespace. -/
structure Conduct (ρ : Type) where
  fault : ρ → Ask → Option Failure × ρ
  reply : ρ → (q : Ask) → q.Answer × ρ
  write : ρ → (ns : String) → Tenant ns → (q : Ask) → q.Answer × Tenant ns × ρ
  /-- The request that is answered is the one that was written. -/
  same_ns : ∀ (e : ρ) (ns : String) (t : Tenant ns) (r r' : CertificateRequest),
    (write e ns t (.addFinalizer r)).1 = .ok r' → r'.metadata.nsText = r.metadata.nsText

namespace Conduct

variable {ρ : Type} (c : Conduct ρ)

/-- A read finds what is there, unless it fails. -/
def find {α : Type} (e : ρ) (q : Ask) (found : Option α) : Except Failure (Option α) × ρ :=
  ((c.fault e q).1.elim (.ok found) .error, (c.fault e q).2)

def put (s : Tenancies) (e : ρ) (ns : String) (q : Ask) : q.Answer × Tenancies × ρ :=
  let (answer, t, e) := c.write e ns (s.tenants ns) q
  (answer, { s with tenants := Function.update s.tenants ns t }, e)

/-- What concerns no namespace is answered without the objects. -/
def other (s : Tenancies) (e : ρ) (q : Ask) : q.Answer × Tenancies × ρ :=
  match q.written? with
  | some ns => c.put s e ns q
  | none => ((c.reply e q).1, s, (c.reply e q).2)

def answer : Surroundings (Tenancies × ρ)
  | (s, e), .readIssuer .namespaced ns name =>
    let (found, e) := c.find e (.readIssuer .namespaced ns name)
      (((s.tenants ns).issuers name).map Subtype.val)
    (found, s, e)
  | (s, e), .readIssuer .cluster ns name =>
    let (found, e) := c.find e (.readIssuer .cluster ns name)
      ((s.clusterIssuers name).map Subtype.val)
    (found, s, e)
  | (s, e), .readSecret ns name =>
    let (found, e) := c.find e (.readSecret ns name) ((s.tenants ns).secrets name)
    (found, s, e)
  | (s, e), .readCertificate ns name =>
    let (found, e) := c.find e (.readCertificate ns name)
      (((s.tenants ns).certificates name).map Subtype.val)
    (found, s, e)
  | (s, e), .readIngress ns name =>
    let (found, e) := c.find e (.readIngress ns name) ((s.tenants ns).ingresses name)
    (found, s, e)
  | (s, e), q => c.other s e q

end Conduct

/-- A namespace and, for a reference to a cluster issuer, its name with the namespace of its
Secret. -/
structure Bounds where
  ns : String
  clusterIssuer : Option String
  clusterNs : String

/-- What a question reads or writes lies within the bounds. -/
def Ask.Within (b : Bounds) : Ask → Prop
  | .readIssuer .namespaced ns _ => ns = b.ns
  | .readIssuer .cluster _ name => b.clusterIssuer = some name
  | .readSecret ns _ => ns = b.ns ∨ b.clusterIssuer.isSome = true ∧ ns = b.clusterNs
  | .readCertificate ns _ => ns = b.ns
  | .readIngress ns _ => ns = b.ns
  | q => ∀ ns, q.written? = some ns → ns = b.ns

namespace Ask

variable {b : Bounds}

@[simp] theorem within_now : Ask.now.Within b := fun _ hno => by cases hno

@[simp] theorem within_openSession (session : Pki.Session) : (Ask.openSession session).Within b :=
  fun _ hno => by cases hno

@[simp] theorem within_call (session : Pki.Session) (c : Pki.Call) :
    (Ask.call session c).Within b :=
  fun _ hno => by cases hno

@[simp] theorem within_lookUp (server : Net.SocketAddress) (name : String) (timeout : Nat) :
    (Ask.lookUp server name timeout).Within b := fun _ hno => by cases hno

end Ask

namespace Tenancies

variable {ρ : Type} {b : Bounds} {s t : Tenancies}

/-- The objects within the bounds are the same. -/
structure Agree (b : Bounds) (s t : Tenancies) : Prop where
  own : s.tenants b.ns = t.tenants b.ns
  issuer : ∀ name, b.clusterIssuer = some name → s.clusterIssuers name = t.clusterIssuers name
  secrets : b.clusterIssuer.isSome = true →
    (s.tenants b.clusterNs).secrets = (t.tenants b.clusterNs).secrets

theorem Agree.update (h : Agree b s t) (own : Tenant b.ns) :
    Agree b { s with tenants := Function.update s.tenants b.ns own }
      { t with tenants := Function.update t.tenants b.ns own } := by
  refine ⟨?_, h.issuer, fun hsome => ?_⟩
  · simp only [Function.update_self]
  · simp only
    by_cases hns : b.clusterNs = b.ns
    · rw [hns, Function.update_self, Function.update_self]
    · rw [Function.update_of_ne hns, Function.update_of_ne hns]
      exact h.secrets hsome

theorem Agree.other (h : Agree b s t) (c : Conduct ρ) (e : ρ) {q : Ask}
    (hq : ∀ ns, q.written? = some ns → ns = b.ns) :
    (c.other s e q).1 = (c.other t e q).1 ∧
      Agree b (c.other s e q).2.1 (c.other t e q).2.1 ∧
      (c.other s e q).2.2 = (c.other t e q).2.2 := by
  unfold Conduct.other
  split
  next ns hns =>
    cases hq ns hns
    simp only [Conduct.put, h.own]
    exact ⟨trivial, h.update _, trivial⟩
  next => exact ⟨rfl, h, rfl⟩

/-- Questions within the bounds do not tell such clusters apart. -/
theorem Agree.answer (h : Agree b s t) (c : Conduct ρ) (e : ρ) {q : Ask} (hq : q.Within b) :
    (c.answer (s, e) q).1 = (c.answer (t, e) q).1 ∧
      Agree b (c.answer (s, e) q).2.1 (c.answer (t, e) q).2.1 ∧
      (c.answer (s, e) q).2.2 = (c.answer (t, e) q).2.2 := by
  cases q with
  | readIssuer scope ns name =>
    cases scope with
    | namespaced =>
      cases hq
      simp only [Conduct.answer, h.own]
      exact ⟨trivial, h, trivial⟩
    | cluster =>
      simp only [Conduct.answer, h.issuer name hq]
      exact ⟨trivial, h, trivial⟩
  | readSecret ns name =>
    have hsecrets : (s.tenants ns).secrets = (t.tenants ns).secrets := by
      rcases hq with rfl | ⟨hsome, rfl⟩
      · rw [h.own]
      · exact h.secrets hsome
    simp only [Conduct.answer, hsecrets]
    exact ⟨trivial, h, trivial⟩
  | readCertificate ns name =>
    cases hq
    simp only [Conduct.answer, h.own]
    exact ⟨trivial, h, trivial⟩
  | readIngress ns name =>
    cases hq
    simp only [Conduct.answer, h.own]
    exact ⟨trivial, h, trivial⟩
  | _ => exact h.other c e hq

/-- The same but for objects out of bounds. -/
def Alike (b : Bounds) (x y : Tenancies × ρ) : Prop := Agree b x.1 y.1 ∧ x.2 = y.2

theorem Alike.answer {x y : Tenancies × ρ} (h : Alike b x y) (c : Conduct ρ) {q : Ask}
    (hq : q.Within b) :
    (c.answer x q).1 = (c.answer y q).1 ∧ Alike b (c.answer x q).2 (c.answer y q).2 := by
  obtain ⟨s, e⟩ := x
  obtain ⟨t, _⟩ := y
  obtain ⟨hst, rfl⟩ := h
  exact hst.answer c e hq

end Tenancies

/-- Objects that are found are where they were looked for. -/
def Placed : Event → Prop
  | ⟨.readIssuer scope ns _, .ok (some i)⟩ =>
    i.scope = scope ∧ (scope = .namespaced → i.metadata.ns = some ns)
  | ⟨.readCertificate ns _, .ok (some c)⟩ => c.metadata.ns = some ns
  | ⟨.addFinalizer r, .ok r'⟩ => r'.metadata.nsText = r.metadata.nsText
  | _ => True

theorem Conduct.ok_of_find {ρ α : Type} {c : Conduct ρ} {e : ρ} {q : Ask} {found : Option α}
    {x : α} (h : (c.find e q found).1 = .ok (some x)) : found = some x := by
  unfold Conduct.find at h
  cases hf : (c.fault e q).1 with
  | none =>
    rw [hf] at h
    exact Except.ok.inj h
  | some f =>
    rw [hf] at h
    cases h

theorem Conduct.placed_answer {ρ : Type} (c : Conduct ρ) (s : Tenancies × ρ) (q : Ask) :
    Placed ⟨q, (c.answer s q).1⟩ := by
  cases q with
  | readIssuer scope ns name =>
    generalize hfound : (c.answer s (.readIssuer scope ns name)).1 = found
    rcases found with _ | _ | i
    · trivial
    · trivial
    cases scope with
    | namespaced =>
      obtain ⟨i', _, rfl⟩ := Option.map_eq_some_iff.mp (ok_of_find hfound)
      exact ⟨i'.property.1, fun _ => i'.property.2⟩
    | cluster =>
      obtain ⟨i', _, rfl⟩ := Option.map_eq_some_iff.mp (ok_of_find hfound)
      exact ⟨i'.property, fun hno => by cases hno⟩
  | readCertificate ns name =>
    generalize hfound : (c.answer s (.readCertificate ns name)).1 = found
    rcases found with _ | _ | parent
    · trivial
    · trivial
    · obtain ⟨parent', _, rfl⟩ := Option.map_eq_some_iff.mp (ok_of_find hfound)
      exact parent'.property
  | addFinalizer r =>
    generalize hanswer : (c.answer s (.addFinalizer r)).1 = answer
    cases answer with
    | error => trivial
    | ok r' => exact c.same_ns _ _ _ _ _ hanswer
  | _ => trivial

theorem Conduct.placed_run {ρ α : Type} (c : Conduct ρ) (p : Pass α) (s : Tenancies × ρ) :
    ∀ e ∈ (p.run c.answer s).events, Placed e := by
  induction p generalizing s with
  | done => simp [Program.run]
  | ask q next ih =>
    intro e he
    rcases List.mem_cons.mp he with rfl | he
    · exact c.placed_answer s q
    · exact ih _ _ e he

end CertBroker
