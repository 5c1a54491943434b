import CertBroker.Proofs.Pass.Events
import CertBroker.Simulation.World
import Mathlib.Logic.Function.Basic

namespace CertBroker

/-- What the API server sets of a metadata itself. -/
structure Stamp where
  generation : Option Int
  managedFields : Option (List ManagedFields)
  resourceVersion : Option String
deriving DecidableEq

/-- The stamp that an object bears. -/
def Metadata.stamp (m : Metadata) : Stamp := ⟨m.generation, m.managedFields, m.resourceVersion⟩

def Metadata.stamped (m : Metadata) (stamp : Stamp) : Metadata :=
  { m with
    generation := stamp.generation
    managedFields := stamp.managedFields
    resourceVersion := stamp.resourceVersion }

variable {fresh : Stamp → Prop}

/-- Every part of a metadata is that of one or that of the other; annotations are parts of their
own, and the stamp may be one that the server has given meanwhile. -/
structure Metadata.Mixes (fresh : Stamp → Prop) (old given new : Metadata) : Prop where
  rest : (∃ annotations finalizers stamp,
      new = { old.stamped stamp with annotations, finalizers }) ∨
    ∃ annotations finalizers stamp, new = { given.stamped stamp with annotations, finalizers }
  annotation? : ∀ key, new.annotation? key = old.annotation? key ∨
    new.annotation? key = given.annotation? key
  finalizers : new.finalizers = old.finalizers ∨ new.finalizers = given.finalizers
  stamp : new.stamp = old.stamp ∨ new.stamp = given.stamp ∨ fresh new.stamp

structure CertificateRequest.Mixes (fresh : Stamp → Prop) (old given new : CertificateRequest) :
    Prop where
  metadata : old.metadata.Mixes fresh given.metadata new.metadata
  spec : new.spec = old.spec ∨ new.spec = given.spec
  conditions : new.currentStatus.conditions = old.currentStatus.conditions ∨
    new.currentStatus.conditions = given.currentStatus.conditions

structure Certificate.Mixes (fresh : Stamp → Prop) (old given new : Certificate) : Prop where
  metadata : old.metadata.Mixes fresh given.metadata new.metadata
  spec : new.spec = old.spec ∨ new.spec = given.spec
  status : new.status = old.status ∨ new.status = given.status

structure Issuer.Mixes (fresh : Stamp → Prop) (old given new : Issuer) : Prop where
  scope : new.scope = old.scope ∨ new.scope = given.scope
  rest : (∃ stamp, new.metadata = old.metadata.stamped stamp) ∨
    ∃ stamp, new.metadata = given.metadata.stamped stamp
  stamp : new.metadata.stamp = old.metadata.stamp ∨ new.metadata.stamp = given.metadata.stamp ∨
    fresh new.metadata.stamp
  spec : new.spec = old.spec ∨ new.spec = given.spec
  status : new.status = old.status ∨ new.status = given.status

theorem eq_of_either {α : Type} {a old given new : α} (ho : old = a) (hg : given = a)
    (h : new = old ∨ new = given) : new = a := by
  rcases h with rfl | rfl
  · exact ho
  · exact hg

/-- What stands under a key after a write: what stood there, what was written, or a mixture. -/
inductive Remains {α : Type} (mixes : α → α → α → Prop) (held : Option α) (given : α) :
    Option α → Prop
  | kept : Remains mixes held given held
  | written : Remains mixes held given (some given)
  | mixed {old new : α} (h : held = some old) (hm : mixes old given new) :
      Remains mixes held given (some new)

/-- What holds of the old object and of the one written holds of what remains, if it holds of all
mixtures. -/
theorem Remains.exists_of {α : Type} {mixes : α → α → α → Prop} {held left : Option α}
    {given old : α} (h : Remains mixes held given left) {P : α → Prop} (ho : held = some old)
    (hold : P old) (hgiven : P given) (hmix : ∀ new, mixes old given new → P new) :
    ∃ new, left = some new ∧ P new := by
  cases h with
  | kept => exact ⟨old, ho, hold⟩
  | written => exact ⟨given, rfl, hgiven⟩
  | mixed h hm =>
    cases ho.symm.trans h
    exact ⟨_, rfl, hmix _ hm⟩

/-- The objects of a store, each kind by its keys. -/
structure Holdings where
  requests : String → Option CertificateRequest
  certificates : String → Option Certificate
  issuers : String → Option Issuer
  secrets : String → Option Secret
  ingresses : String → Option Ingress

namespace Holdings

variable {w w' : Holdings} {e : Event} {first second events : List Event}

def setRequest (w : Holdings) (key : String) (left : Option CertificateRequest) : Holdings :=
  { w with requests := Function.update w.requests key left }

def setCertificate (w : Holdings) (key : String) (left : Option Certificate) : Holdings :=
  { w with certificates := Function.update w.certificates key left }

def setIssuer (w : Holdings) (key : String) (left : Option Issuer) : Holdings :=
  { w with issuers := Function.update w.issuers key left }

/-- How an event goes together with the holdings before and after it, if the server gives such
stamps. Reads of Certificates find what is there, or fail; the request that is answered with its
finalizer is the one that remains. -/
inductive Serves (fresh : Stamp → Prop) (w : Holdings) : Event → Holdings → Prop
  | found (ns name : String) :
      Serves fresh w ⟨.readCertificate ns name, .ok (w.certificates (objectKey ns name))⟩ w
  | unread (ns name : String) (f : Failure) : Serves fresh w ⟨.readCertificate ns name, .error f⟩ w
  | stored {before after : CertificateRequest} {left : Option CertificateRequest}
      (h : Remains (CertificateRequest.Mixes fresh) (w.requests after.metadata.key) after left)
      (answer : Except Failure Unit) :
      Serves fresh w ⟨.storeRequest before after, answer⟩ (w.setRequest after.metadata.key left)
  | guarded {r q : CertificateRequest}
      (h : Remains (CertificateRequest.Mixes fresh) (w.requests r.metadata.key)
        (Simulation.World.guard r true) (some q)) :
      Serves fresh w ⟨.addFinalizer r, .ok q⟩ (w.setRequest r.metadata.key (some q))
  | unguarded {r : CertificateRequest} {left : Option CertificateRequest}
      (h : Remains (CertificateRequest.Mixes fresh) (w.requests r.metadata.key)
        (Simulation.World.guard r true) left) (f : Failure) :
      Serves fresh w ⟨.addFinalizer r, .error f⟩ (w.setRequest r.metadata.key left)
  | released {r : CertificateRequest} {left : Option CertificateRequest}
      (h : Remains (CertificateRequest.Mixes fresh) (w.requests r.metadata.key)
        (Simulation.World.guard r false) left) (answer : Except Failure Unit) :
      Serves fresh w ⟨.removeFinalizer r, answer⟩ (w.setRequest r.metadata.key left)
  | annotated {c : Certificate} {left : Option Certificate}
      (h : Remains (Certificate.Mixes fresh) (w.certificates c.metadata.key) c left)
      (answer : Except Failure Unit) :
      Serves fresh w ⟨.storeAnnotations c, answer⟩ (w.setCertificate c.metadata.key left)
  | reported {i : Issuer} {left : Option Issuer}
      (h : Remains (Issuer.Mixes fresh) (w.issuers i.key) i left) (answer : Except Failure Unit) :
      Serves fresh w ⟨.storeIssuerStatus i, answer⟩ (w.setIssuer i.key left)
  | beside {e : Event} (hw : e.question.isWrite = false)
      (hc : e.question.concernsParent = false) : Serves fresh w e w

/-- The events lead from one state of the holdings to another. -/
def Answers (fresh : Stamp → Prop) (w : Holdings) : List Event → Holdings → Prop
  | [], w' => w' = w
  | e :: events, w' => ∃ between, w.Serves fresh e between ∧ between.Answers fresh events w'

@[simp] theorem answers_nil : w.Answers fresh [] w' ↔ w' = w := Iff.rfl

@[simp] theorem answers_cons :
    w.Answers fresh (e :: events) w' ↔
      ∃ between, w.Serves fresh e between ∧ between.Answers fresh events w' := Iff.rfl

@[simp] theorem answers_append :
    w.Answers fresh (first ++ second) w' ↔
      ∃ between, w.Answers fresh first between ∧ between.Answers fresh second w' := by
  induction first generalizing w with
  | nil => simp
  | cons e first ih =>
    simp only [List.cons_append, answers_cons, ih]
    constructor
    · rintro ⟨between, he, between', hfirst, hsecond⟩
      exact ⟨between', ⟨between, he, hfirst⟩, hsecond⟩
    · rintro ⟨between', ⟨between, he, hfirst⟩, hsecond⟩
      exact ⟨between, he, between', hfirst, hsecond⟩

theorem Serves.eq_of_unwritten (h : w.Serves fresh e w') (hu : e.question.isWrite = false) :
    w' = w := by
  cases h <;> first | rfl | cases hu

theorem Answers.eq_of_unwritten (h : w.Answers fresh events w') (hu : Unwritten events) :
    w' = w := by
  induction events generalizing w with
  | nil => exact h
  | cons e events ih =>
    obtain ⟨between, he, h⟩ := h
    obtain ⟨hquestion, hrest⟩ := never_cons.mp hu
    rw [ih h hrest, he.eq_of_unwritten hquestion]

/-- What every allowed question keeps is kept by all of them. -/
theorem Answers.invariant {P : Holdings → Prop} {allowed : Ask → Prop}
    (h : w.Answers fresh events w')
    (hstep : ∀ v e v', v.Serves fresh e v' → allowed e.question → P v → P v')
    (ha : ∀ e ∈ events, allowed e.question) (hw : P w) : P w' := by
  induction events generalizing w with
  | nil =>
    cases h
    exact hw
  | cons e events ih =>
    obtain ⟨between, he, h⟩ := h
    have hbetween := hstep w e between he (ha e List.mem_cons_self) hw
    exact ih h (fun e he => ha e (List.mem_cons_of_mem _ he)) hbetween

/-- A Certificate that is read is the one that is held. -/
theorem Serves.certificate {ns name : String} {c : Certificate}
    {answer : Except Failure (Option Certificate)}
    (h : w.Serves fresh ⟨.readCertificate ns name, answer⟩ w') (ha : answer = .ok (some c)) :
    w.certificates (objectKey ns name) = some c := by
  cases h with
  | found => exact Except.ok.inj ha
  | unread => cases ha
  | beside _ hc => cases hc

/-- A request that is answered with its finalizer is the one that remains. -/
theorem Serves.guards {r q : CertificateRequest} {answer : Except Failure CertificateRequest}
    (h : w.Serves fresh ⟨.addFinalizer r, answer⟩ w') (ha : answer = .ok q) :
    Remains (CertificateRequest.Mixes fresh) (w.requests r.metadata.key)
      (Simulation.World.guard r true) (some q) := by
  cases h with
  | guarded h =>
    cases ha
    exact h
  | unguarded => cases ha
  | beside hw => cases hw

open Simulation (World)

def ofWorld (w : World) : Holdings :=
  ⟨w.requests.get?, w.certificates.get?, w.issuers.get?, w.secrets.get?, w.ingresses.get?⟩

theorem get?_insert_eq {α : Type} (d : Dict α) (key : String) (value : α) :
    (d.insert key value).get? = Function.update d.get? key (some value) := by
  funext other
  rw [Dict.get?_insert, Function.update_apply]
  simp only [eq_comm]

theorem ofWorld_putRequest (w : World) (r : CertificateRequest) :
    ofWorld (w.putRequest r) = (ofWorld w).setRequest r.metadata.key (some r) := by
  simp [ofWorld, World.putRequest, setRequest, get?_insert_eq]

theorem ofWorld_putCertificate (w : World) (c : Certificate) :
    ofWorld (w.putCertificate c) = (ofWorld w).setCertificate c.metadata.key (some c) := by
  simp [ofWorld, World.putCertificate, setCertificate, get?_insert_eq]

theorem ofWorld_putIssuer (w : World) (i : Issuer) :
    ofWorld (w.putIssuer i) = (ofWorld w).setIssuer i.key (some i) := by
  simp [ofWorld, World.putIssuer, setIssuer, get?_insert_eq]

theorem setRequest_self (w : Holdings) (key : String) : w.setRequest key (w.requests key) = w := by
  simp [setRequest]

theorem setCertificate_self (w : Holdings) (key : String) :
    w.setCertificate key (w.certificates key) = w := by
  simp [setCertificate]

theorem setIssuer_self (w : Holdings) (key : String) : w.setIssuer key (w.issuers key) = w := by
  simp [setIssuer]

/-- A world does a write of the store, or fails it and stays as it is. -/
theorem serves_answer (w : World) (q : Ask) :
    (ofWorld w).Serves fresh ⟨q, (w.answer q).1⟩ (ofWorld (w.answer q).2) := by
  cases q with
  | readCertificate ns name =>
    simp only [World.answer, World.read]
    split
    next f _ => exact .unread ns name f
    next => exact .found ns name
  | storeRequest before after =>
    simp only [World.answer, World.write]
    split
    next f _ => simpa only [setRequest_self] using Serves.stored .kept (.error f)
    next =>
      rw [ofWorld_putRequest]
      exact .stored .written (.ok ())
  | addFinalizer r =>
    simp only [World.answer, World.write]
    split
    next f _ => simpa only [setRequest_self] using Serves.unguarded .kept f
    next =>
      rw [ofWorld_putRequest]
      exact .guarded .written
  | removeFinalizer r =>
    simp only [World.answer, World.write]
    split
    next f _ => simpa only [setRequest_self] using Serves.released .kept (.error f)
    next =>
      rw [ofWorld_putRequest]
      exact .released .written (.ok ())
  | storeAnnotations c =>
    simp only [World.answer, World.write]
    split
    next f _ => simpa only [setCertificate_self] using Serves.annotated .kept (.error f)
    next =>
      rw [ofWorld_putCertificate]
      exact .annotated .written (.ok ())
  | storeIssuerStatus i =>
    simp only [World.answer, World.write]
    split
    next f _ => simpa only [setIssuer_self] using Serves.reported .kept (.error f)
    next =>
      rw [ofWorld_putIssuer]
      exact .reported .written (.ok ())
  | _ => exact .beside rfl rfl

theorem answers_run {α : Type} (p : Pass α) (w : World) :
    (ofWorld w).Answers fresh (p.run World.answer w).events
      (ofWorld (p.run World.answer w).state) := by
  induction p generalizing w with
  | done => rfl
  | ask q next ih => exact ⟨_, serves_answer w q, ih (w.answer q).1 (w.answer q).2⟩

end Holdings

end CertBroker
