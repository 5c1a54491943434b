import CertBroker.Pass.Session
import CertBroker.Proofs.Pki.Credentials
import CertBroker.Proofs.Program.Lockstep

namespace CertBroker

/-- Credentials that take each other's place. -/
abbrev Pki.Credentials.Pairing : Type := Pki.Credentials → Pki.Credentials → Prop

variable {α β γ δ : Type} {pairing : Pki.Credentials.Pairing}

/-- Sessions with one endpoint, and credentials that take each other's place. -/
structure Pki.Session.Twin (pairing : Pki.Credentials.Pairing) (s t : Pki.Session) : Prop where
  endpoint : t.endpoint = s.endpoint
  credentials : pairing s.credentials t.credentials

namespace Secret

def credentials (s : Secret) (name : String) : Except PkiError Pki.Credentials :=
  Pki.Credentials.ofSecret name s.type (s.data.getD .empty)

/-- Why a Secret gives no credentials, if it gives none. -/
def fault? (s : Secret) : Option Pki.Credentials.Fault :=
  Pki.Credentials.fault? s.type (s.data.getD .empty)

theorem told_credentials (s : Secret) (name : String) :
    Pki.Credentials.Told name (s.credentials name) s.fault? :=
  Pki.Credentials.told_ofSecret ..

/-- Secrets that differ in their data alone. They give credentials both, then of one kind, as their
type is the same; or neither does, for the same reason. -/
structure Alike (s t : Secret) : Prop where
  rest : t = { s with data := t.data }
  fault : t.fault? = s.fault?

theorem Alike.refl (s : Secret) : s.Alike s := ⟨rfl, rfl⟩

/-- Secrets that are alike, with credentials that take each other's place. -/
structure Twin (pairing : Pki.Credentials.Pairing) (name : String) (s t : Secret) : Prop where
  alike : s.Alike t
  pairing : ∀ c d, s.credentials name = .ok c → t.credentials name = .ok d → pairing c d

end Secret

/-- Outcomes that fail alike, or go well with values that are related. -/
inductive Agree (values : α → β → Prop) : Except Failure α → Except Failure β → Prop
  | ok {a : α} {b : β} (h : values a b) : Agree values (.ok a) (.ok b)
  | error (f : Failure) : Agree values (.error f) (.error f)

@[simp] theorem agree_eq {r r' : Except Failure α} : Agree (· = ·) r r' ↔ r = r' := by
  constructor
  · rintro (⟨rfl⟩ | _) <;> rfl
  · rintro rfl
    cases r with
    | ok a => exact .ok rfl
    | error f => exact .error f

/-- One question, but for the credentials of a session. -/
def Ask.Twin (pairing : Pki.Credentials.Pairing) : Ask → Ask → Prop
  | .openSession s, q => ∃ t, s.Twin pairing t ∧ q = .openSession t
  | .call s c, q => ∃ t, s.Twin pairing t ∧ q = .call t c
  | q, q' => q' = q

/-- One event, but for the credentials of a session, or the Secret that was read. -/
def Event.Twin (pairing : Pki.Credentials.Pairing) : Event → Event → Prop
  | ⟨.readSecret ns name, found⟩, e =>
    ∃ found', Agree (Option.Rel (Secret.Twin pairing name)) found found' ∧
      e = ⟨.readSecret ns name, found'⟩
  | ⟨.openSession s, outcome⟩, e => ∃ t, s.Twin pairing t ∧ e = ⟨.openSession t, outcome⟩
  | ⟨.call s c, outcome⟩, e => ∃ t, s.Twin pairing t ∧ e = ⟨.call t c, outcome⟩
  | e, e' => e' = e

/-- Whether a question is about credentials, or asked with them. -/
def Ask.isConfidential : Ask → Bool
  | .readSecret _ _ => true
  | .openSession _ => true
  | .call _ _ => true
  | _ => false

theorem Ask.twin_iff {q q' : Ask} (h : q.isConfidential = false) :
    q.Twin pairing q' ↔ q' = q := by
  cases q <;> first | rfl | cases h

theorem Event.twin_iff {e e' : Event} (h : e.question.isConfidential = false) :
    Event.Twin pairing e e' ↔ e' = e := by
  obtain ⟨q, a⟩ := e
  cases q <;> first | rfl | cases h

/-- Passes that ask twins as long as twins happen, and then have values that are related. -/
def Pass.Twin (pairing : Pki.Credentials.Pairing) (values : α → β → Prop) (p : Pass α)
    (p' : Pass β) : Prop :=
  Program.Lockstep (Ask.Twin pairing) (Event.Twin pairing) values p p'

/-- A pass that does the same whatever the credentials are. -/
def Pass.Discreet (pairing : Pki.Credentials.Pairing) (p : Pass α) : Prop :=
  Pass.Twin pairing (· = ·) p p

namespace Pass

theorem twin_done {values : α → β → Prop} {a : α} {b : β} (h : values a b) :
    Pass.Twin pairing values (.done a) (.done b) := .done h

theorem Twin.bind {values : α → β → Prop} {values' : γ → δ → Prop} {p : Pass α} {p' : Pass β}
    {f : α → Pass γ} {f' : β → Pass δ} (h : Pass.Twin pairing values p p')
    (hf : ∀ a b, values a b → Pass.Twin pairing values' (f a) (f' b)) :
    Pass.Twin pairing values' (p >>= f) (p' >>= f') :=
  Program.Lockstep.bind h hf

theorem discreet_done (a : α) : Pass.Discreet pairing (.done a) := .done rfl

theorem Discreet.bind {p : Pass α} {f : α → Pass β} (h : Pass.Discreet pairing p)
    (hf : ∀ a, Pass.Discreet pairing (f a)) : Pass.Discreet pairing (p >>= f) :=
  Twin.bind h fun a _ hab => hab ▸ hf a

/-- A question without credentials is answered alike. -/
theorem discreet_put {q : Ask} (h : q.isConfidential = false) :
    Pass.Discreet pairing (Ask.put q) := by
  refine .ask ((Ask.twin_iff h).mpr rfl) fun a a' htwin => .done ?_
  cases (Event.twin_iff h).mp htwin
  rfl

end Pass

namespace Attempt

def Twin (pairing : Pki.Credentials.Pairing) (values : α → β → Prop) (a : Attempt α)
    (a' : Attempt β) : Prop :=
  Pass.Twin pairing (Agree values) a.result a'.result

/-- An attempt that does the same whatever the credentials are. -/
def Discreet (pairing : Pki.Credentials.Pairing) (a : Attempt α) : Prop :=
  a.Twin pairing (· = ·) a

theorem discreet_iff {a : Attempt α} : a.Discreet pairing ↔ a.result.Discreet pairing := by
  have hagree : (Agree (· = ·) : Except Failure α → Except Failure α → Prop) = (· = ·) := by
    funext r r'
    exact propext agree_eq
  simp only [Discreet, Twin, Pass.Discreet, hagree]

/-- After a failure of one, which is one of both, nothing follows. -/
theorem Twin.bind {values : α → β → Prop} {values' : γ → δ → Prop} {a : Attempt α}
    {a' : Attempt β} {f : α → Attempt γ} {f' : β → Attempt δ} (h : a.Twin pairing values a')
    (hf : ∀ x y, values x y → (f x).Twin pairing values' (f' y)) :
    (a >>= f).Twin pairing values' (a' >>= f') := by
  refine Pass.Twin.bind h fun r r' hr => ?_
  cases hr with
  | ok h => exact hf _ _ h
  | error f => exact Pass.twin_done (.error f)

theorem Discreet.bind {a : Attempt α} {f : α → Attempt β} (h : a.Discreet pairing)
    (hf : ∀ x, (f x).Discreet pairing) : (a >>= f).Discreet pairing :=
  Twin.bind h fun x _ hxy => hxy ▸ hf x

theorem twin_pure {values : α → β → Prop} {x : α} {y : β} (h : values x y) :
    (pure x : Attempt α).Twin pairing values (pure y) := Pass.twin_done (.ok h)

theorem twin_throw (values : α → β → Prop) (f : Failure) :
    (throw f : Attempt α).Twin pairing values (throw f) := Pass.twin_done (.error f)

theorem twin_ofExcept {values : α → β → Prop} {r : Except Failure α} {r' : Except Failure β}
    (h : Agree values r r') : (ofExcept r).Twin pairing values (ofExcept r') := Pass.twin_done h

theorem discreet_pure (x : α) : (pure x : Attempt α).Discreet pairing := twin_pure rfl

theorem discreet_throw (f : Failure) : (throw f : Attempt α).Discreet pairing := twin_throw _ f

theorem discreet_ofExcept (r : Except Failure α) : (ofExcept r).Discreet pairing :=
  twin_ofExcept (agree_eq.mpr rfl)

theorem twin_lift {values : α → β → Prop} {p : Pass α} {p' : Pass β}
    (h : Pass.Twin pairing values p p') : (lift p).Twin pairing values (lift p') :=
  Pass.Twin.bind h fun _ _ hxy => Pass.twin_done (.ok hxy)

theorem discreet_lift {p : Pass α} (h : p.Discreet pairing) : (lift p).Discreet pairing :=
  twin_lift h

/-- Answers of the PKI to twins are the same, and so are its errors. -/
theorem twin_ofPki {p p' : Pass (Except PkiError α)} (h : Pass.Twin pairing (· = ·) p p') :
    (ofPki p).Twin pairing (· = ·) (ofPki p') :=
  Pass.Twin.bind h fun r r' hr => by
    subst hr
    exact Pass.twin_done (agree_eq.mpr rfl)

end Attempt

end CertBroker
