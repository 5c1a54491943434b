import CertBroker.Pass.Session
import CertBroker.Proofs.Pass.Events
import CertBroker.Proofs.Program.Trace

namespace CertBroker

open Program (Trace)

variable {α β σ ε φ : Type}

@[simp] theorem mapError_ok (a : α) (f : ε → φ) :
    (Except.ok a : Except ε α).mapError f = .ok a := rfl

@[simp] theorem mapError_error (e : ε) (f : ε → φ) :
    (Except.error e : Except ε α).mapError f = .error (f e) := rfl

@[simp] theorem mapError_eq_ok {r : Except ε α} {f : ε → φ} {a : α} :
    r.mapError f = .ok a ↔ r = .ok a := by
  cases r <;> simp

@[simp] theorem mapError_eq_error {r : Except ε α} {f : ε → φ} {e : φ} :
    r.mapError f = .error e ↔ ∃ e', r = .error e' ∧ f e' = e := by
  cases r <;> simp

@[simp] theorem Ask.trace_put_iff {q : Ask} {events : List Event} {a : q.Answer} :
    Trace (Ask.put q) events a ↔ events = [⟨q, a⟩] := Program.trace_put_iff

@[simp] theorem Ask.trace_time_iff {events : List Event} {now : Time} :
    Trace Ask.time events now ↔ events = [⟨.now, now⟩] := Program.trace_put_iff

namespace Attempt

/-- An attempt can be asked and answered like this, and then has this outcome. -/
def Yields (a : Attempt α) (events : List Event) (outcome : Except Failure α) : Prop :=
  Trace a.result events outcome

theorem run_yields (answer : Surroundings σ) (a : Attempt α) (s : σ) :
    a.Yields (a.result.run answer s).events (a.result.run answer s).value :=
  Program.run_trace answer a.result s

@[simp] theorem yields_pure {a : α} {events : List Event} {outcome : Except Failure α} :
    (pure a : Attempt α).Yields events outcome ↔ events = [] ∧ outcome = .ok a :=
  Program.trace_done_iff

@[simp] theorem yields_throw {f : Failure} {events : List Event} {outcome : Except Failure α} :
    (throw f : Attempt α).Yields events outcome ↔ events = [] ∧ outcome = .error f :=
  Program.trace_done_iff

@[simp] theorem yields_ofExcept {r : Except Failure α} {events : List Event}
    {outcome : Except Failure α} :
    (ofExcept r).Yields events outcome ↔ events = [] ∧ outcome = r :=
  Program.trace_done_iff

/-- After a failure nothing more is asked; otherwise the events of both stand in order. -/
@[simp] theorem yields_bind {a : Attempt α} {f : α → Attempt β} {events : List Event}
    {outcome : Except Failure β} :
    (a >>= f).Yields events outcome ↔
      (∃ e, a.Yields events (.error e) ∧ outcome = .error e) ∨
        ∃ x first second, events = first ++ second ∧ a.Yields first (.ok x) ∧
          (f x).Yields second outcome := by
  have hbind : (a >>= f).result = a.result >>= fun r =>
      match r with
      | .ok x => (f x).result
      | .error e => .done (.error e) := by
    change ExceptT.run (a >>= f) = _
    rw [ExceptT.run_bind]
    congr 1
    funext r
    cases r <;> rfl
  simp only [Yields, hbind, Program.trace_bind_iff]
  constructor
  · rintro ⟨r, first, second, rfl, h, h'⟩
    cases r with
    | ok x => exact .inr ⟨x, first, second, rfl, h, h'⟩
    | error e =>
      obtain ⟨rfl, rfl⟩ := Program.trace_done_iff.mp h'
      exact .inl ⟨e, by simpa using h, rfl⟩
  · rintro (⟨e, h, rfl⟩ | ⟨x, first, second, rfl, h, h'⟩)
    · exact ⟨.error e, events, [], by simp, h, .done _⟩
    · exact ⟨.ok x, first, second, rfl, h, h'⟩

/-- What follows the events of a known success belongs to the attempt that goes on. -/
theorem Yields.rest_of_bind {a : Attempt α} {f : α → Attempt β} {first rest : List Event} {x : α}
    {outcome : Except Failure β} (h : (a >>= f).Yields (first ++ rest) outcome)
    (ha : a.Yields first (.ok x)) : (f x).Yields rest outcome := by
  rcases yields_bind.mp h with ⟨e, he, rfl⟩ | ⟨y, first', rest', heq, hy, hf⟩
  · obtain ⟨-, hok, -⟩ := Program.Trace.unique ha he (List.append_nil (first ++ rest)).symm
    cases hok
  · obtain ⟨rfl, hok, rfl⟩ := Program.Trace.unique ha hy heq
    cases hok
    exact hf

@[simp] theorem yields_lift {p : Pass α} {events : List Event} {outcome : Except Failure α} :
    (lift p).Yields events outcome ↔ ∃ x, Trace p events x ∧ outcome = .ok x := by
  have hlift : (lift p).result = p >>= fun x => .done (.ok x) := rfl
  simp only [Yields, hlift, Program.trace_bind_iff, Program.trace_done_iff]
  constructor
  · rintro ⟨x, first, second, rfl, h, rfl, rfl⟩
    exact ⟨x, by simpa using h, rfl⟩
  · rintro ⟨x, h, rfl⟩
    exact ⟨x, events, [], by simp, h, rfl, rfl⟩

@[simp] theorem yields_ofPki {p : Pass (Except PkiError α)} {events : List Event}
    {outcome : Except Failure α} :
    (ofPki p).Yields events outcome ↔
      ∃ r, Trace p events r ∧ outcome = r.mapError Failure.pki := by
  have hpki : (ofPki p).result = p >>= fun r => .done (r.mapError Failure.pki) := rfl
  simp only [Yields, hpki, Program.trace_bind_iff, Program.trace_done_iff]
  constructor
  · rintro ⟨r, first, second, rfl, h, rfl, rfl⟩
    exact ⟨r, by simpa using h, rfl⟩
  · rintro ⟨r, h, rfl⟩
    exact ⟨r, events, [], by simp, h, rfl, rfl⟩

@[simp] theorem trace_result {a : Attempt α} {events : List Event} {outcome : Except Failure α} :
    Trace a.result events outcome ↔ a.Yields events outcome := Iff.rfl

@[simp] theorem yields_issuer {scope : IssuerScope} {ns name : String} {events : List Event}
    {outcome : Except Failure (Option Issuer)} :
    (Ask.issuer scope ns name).Yields events outcome ↔
      events = [⟨.readIssuer scope ns name, outcome⟩] := Program.trace_put_iff

@[simp] theorem yields_secret {ns name : String} {events : List Event}
    {outcome : Except Failure (Option Secret)} :
    (Ask.secret ns name).Yields events outcome ↔ events = [⟨.readSecret ns name, outcome⟩] :=
  Program.trace_put_iff

@[simp] theorem yields_certificate {ns name : String} {events : List Event}
    {outcome : Except Failure (Option Certificate)} :
    (Ask.certificate ns name).Yields events outcome ↔
      events = [⟨.readCertificate ns name, outcome⟩] := Program.trace_put_iff

@[simp] theorem yields_ingress {ns name : String} {events : List Event}
    {outcome : Except Failure (Option Ingress)} :
    (Ask.ingress ns name).Yields events outcome ↔ events = [⟨.readIngress ns name, outcome⟩] :=
  Program.trace_put_iff

@[simp] theorem yields_addFinalizer {r : CertificateRequest} {events : List Event}
    {outcome : Except Failure CertificateRequest} :
    Yields (Ask.put (.addFinalizer r)) events outcome ↔ events = [⟨.addFinalizer r, outcome⟩] :=
  Program.trace_put_iff

@[simp] theorem yields_removeFinalizer {r : CertificateRequest} {events : List Event}
    {outcome : Except Failure Unit} :
    Yields (Ask.put (.removeFinalizer r)) events outcome ↔
      events = [⟨.removeFinalizer r, outcome⟩] := Program.trace_put_iff

@[simp] theorem yields_storeAnnotations {c : Certificate} {events : List Event}
    {outcome : Except Failure Unit} :
    Yields (Ask.put (.storeAnnotations c)) events outcome ↔
      events = [⟨.storeAnnotations c, outcome⟩] := Program.trace_put_iff

@[simp] theorem yields_call {s : Pki.Session} {c : Pki.Call} {events : List Event}
    {outcome : Except Failure c.Reply} :
    (s.call c).Yields events outcome ↔
      ∃ r, events = [⟨.call s c, r⟩] ∧ outcome = r.mapError Failure.pki := by
  simp only [Pki.Session.call, yields_ofPki]
  constructor
  · rintro ⟨r, h, rfl⟩
    exact ⟨r, Program.trace_put_iff.mp h, rfl⟩
  · rintro ⟨r, h, rfl⟩
    exact ⟨r, Program.trace_put_iff.mpr h, rfl⟩

end Attempt

end CertBroker
