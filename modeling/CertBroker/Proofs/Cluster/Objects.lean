import CertBroker.Proofs.Cluster.Ledger
import CertBroker.Proofs.Pass.Events
import CertBroker.Simulation.World
import Mathlib.Logic.Function.Basic

namespace CertBroker

/-- The same object with the same annotations, whatever else the server sets. -/
structure Metadata.Kept (m m' : Metadata) : Prop where
  ns : m'.nsText = m.nsText
  name : m'.nameText = m.nameText
  deletionTimestamp : m'.deletionTimestamp = m.deletionTimestamp
  annotation? : ∀ key, m'.annotation? key = m.annotation? key

namespace Metadata.Kept

variable {m m' : Metadata}

theorem refl (m : Metadata) : m.Kept m := ⟨rfl, rfl, rfl, fun _ => rfl⟩

theorem key (h : m.Kept m') : m'.key = m.key := by
  rw [Metadata.key, h.ns, h.name, Metadata.key]

theorem entry? (h : m.Kept m') (key : String) : m'.entry? key = m.entry? key := by
  rw [Metadata.entry?, h.annotation?, Metadata.entry?]

end Metadata.Kept

/-- The same request with the same annotations and conditions. -/
structure CertificateRequest.Kept (r q : CertificateRequest) : Prop where
  metadata : r.metadata.Kept q.metadata
  conditions : q.currentStatus.conditions = r.currentStatus.conditions

namespace CertificateRequest.Kept

variable {r q : CertificateRequest}

theorem refl (r : CertificateRequest) : r.Kept r := ⟨.refl r.metadata, rfl⟩

theorem isDeleted (h : r.Kept q) : q.isDeleted = r.isDeleted := by
  rw [CertificateRequest.isDeleted, h.metadata.deletionTimestamp, CertificateRequest.isDeleted]

theorem certificateId? (h : r.Kept q) : q.metadata.certificateId? = r.metadata.certificateId? :=
  h.metadata.entry? _

theorem hasTrue (h : r.Kept q) (type : String) :
    q.currentStatus.hasTrue type = r.currentStatus.hasTrue type := by
  rw [RequestStatus.hasTrue, RequestStatus.condition, h.conditions, RequestStatus.hasTrue,
    RequestStatus.condition]

end CertificateRequest.Kept

/-- The requests and the Certificates, each under its key. -/
structure Objects where
  requests : String → Option CertificateRequest
  certificates : String → Option Certificate

namespace Objects

variable {o o' : Objects} {events first second : List Event}

def putRequest (o : Objects) (r : CertificateRequest) : Objects :=
  { o with requests := Function.update o.requests r.metadata.key (some r) }

def dropRequest (o : Objects) (r : CertificateRequest) : Objects :=
  { o with requests := Function.update o.requests r.metadata.key none }

def putCertificate (o : Objects) (c : Certificate) : Objects :=
  { o with certificates := Function.update o.certificates c.metadata.key (some c) }

@[simp] theorem putRequest_requests_self (o : Objects) (r : CertificateRequest) :
    (o.putRequest r).requests r.metadata.key = some r := Function.update_self ..

theorem putRequest_requests_of_ne {key : String} {r : CertificateRequest}
    (h : key ≠ r.metadata.key) : (o.putRequest r).requests key = o.requests key :=
  Function.update_of_ne h ..

@[simp] theorem dropRequest_requests_self (o : Objects) (r : CertificateRequest) :
    (o.dropRequest r).requests r.metadata.key = none := Function.update_self ..

theorem dropRequest_requests_of_ne {key : String} {r : CertificateRequest}
    (h : key ≠ r.metadata.key) : (o.dropRequest r).requests key = o.requests key :=
  Function.update_of_ne h ..

@[simp] theorem putCertificate_certificates_self (o : Objects) (c : Certificate) :
    (o.putCertificate c).certificates c.metadata.key = some c := Function.update_self ..

theorem putCertificate_certificates_of_ne {key : String} {c : Certificate}
    (h : key ≠ c.metadata.key) : (o.putCertificate c).certificates key = o.certificates key :=
  Function.update_of_ne h ..

/-- How an event goes together with the objects before and after it. Every write succeeds; what it
does not concern stays, and reads may fail. A deleted request is gone with its last finalizer. -/
inductive Serves : Objects → Event → Objects → Prop
  | found {o : Objects} (ns name : String) :
      Serves o ⟨.readCertificate ns name, .ok (o.certificates (objectKey ns name))⟩ o
  | unread {o : Objects} (ns name : String) (f : Failure) :
      Serves o ⟨.readCertificate ns name, .error f⟩ o
  | stored {o : Objects} {before after q : CertificateRequest} (h : after.Kept q) :
      Serves o ⟨.storeRequest before after, .ok ()⟩ (o.putRequest q)
  | guarded {o : Objects} {r q : CertificateRequest} (h : r.Kept q) :
      Serves o ⟨.addFinalizer r, .ok q⟩ (o.putRequest q)
  | released {o : Objects} {r q : CertificateRequest} (h : r.Kept q) :
      Serves o ⟨.removeFinalizer r, .ok ()⟩ (o.putRequest q)
  | removed {o : Objects} {r : CertificateRequest} :
      Serves o ⟨.removeFinalizer r, .ok ()⟩ (o.dropRequest r)
  | annotated {o : Objects} {c d : Certificate} (h : c.metadata.Kept d.metadata) :
      Serves o ⟨.storeAnnotations c, .ok ()⟩ (o.putCertificate d)
  | beside {o : Objects} {e : Event} (hr : e.question.changesRequest = false)
      (hc : e.question.concernsParent = false) : Serves o e o

inductive Answers : Objects → List Event → Objects → Prop
  | rest (o : Objects) : Answers o [] o
  | next {o o' o'' : Objects} {e : Event} {events : List Event} (he : o.Serves e o')
      (h : Answers o' events o'') : Answers o (e :: events) o''

@[simp] theorem answers_nil_iff : o.Answers [] o' ↔ o' = o := by
  constructor
  · rintro ⟨⟩
    rfl
  · rintro rfl
    exact .rest o'

@[simp] theorem answers_cons_iff {e : Event} :
    o.Answers (e :: events) o' ↔ ∃ between, o.Serves e between ∧ between.Answers events o' := by
  constructor
  · rintro ⟨⟩
    exact ⟨_, ‹_›, ‹_›⟩
  · rintro ⟨between, he, h⟩
    exact .next he h

@[simp] theorem answers_append_iff :
    o.Answers (first ++ second) o' ↔ ∃ between, o.Answers first between ∧
      between.Answers second o' := by
  induction first generalizing o with
  | nil => simp
  | cons e first ih =>
    simp only [List.cons_append, answers_cons_iff, ih]
    constructor
    · rintro ⟨between, he, between', hfirst, hsecond⟩
      exact ⟨between', ⟨between, he, hfirst⟩, hsecond⟩
    · rintro ⟨between', ⟨between, he, hfirst⟩, hsecond⟩
      exact ⟨between, he, between', hfirst, hsecond⟩

theorem Answers.eq_of_unwritten (h : o.Answers events o') (hu : Unwritten events) : o' = o := by
  induction h with
  | rest => rfl
  | next he _ ih =>
    obtain ⟨hquestion, hrest⟩ := never_cons.mp hu
    rw [ih hrest]
    cases he <;> first | rfl | cases hquestion

theorem Answers.isSome_certificates {key : String} (h : o.Answers events o')
    (hc : (o.certificates key).isSome = true) : (o'.certificates key).isSome = true := by
  induction h with
  | rest => exact hc
  | next he _ ih =>
    apply ih
    cases he with
    | @annotated _ d =>
      by_cases hkey : key = d.metadata.key
      · rw [hkey, putCertificate_certificates_self]
        rfl
      · rwa [putCertificate_certificates_of_ne hkey]
    | _ => exact hc

theorem Answers.certificates_of_alone (h : o.Answers events o') (ha : Alone events) :
    o'.certificates = o.certificates := by
  induction h with
  | rest => rfl
  | next he _ ih =>
    obtain ⟨hquestion, hrest⟩ := never_cons.mp ha
    rw [ih hrest]
    cases he <;> first | rfl | cases hquestion

/-- The last certificate id of the parent under a key. -/
def lastId? (o : Objects) (parent : String) : Option String :=
  (o.certificates parent).bind (·.metadata.lastCertificateId?)

/-- The certificate id of the request under a key. -/
def idAt? (o : Objects) (key : String) : Option String :=
  (o.requests key).bind (·.metadata.certificateId?)

theorem lastId?_putCertificate_self (o : Objects) (c : Certificate) :
    (o.putCertificate c).lastId? c.metadata.key = c.metadata.lastCertificateId? := by
  rw [lastId?, putCertificate_certificates_self, Option.bind_some]

theorem lastId?_putCertificate_of_ne {parent : String} {c : Certificate}
    (h : parent ≠ c.metadata.key) : (o.putCertificate c).lastId? parent = o.lastId? parent := by
  rw [lastId?, putCertificate_certificates_of_ne h, lastId?]

/-- A request with a certificate id has been issued. -/
def Sound (r : CertificateRequest) : Prop :=
  r.metadata.certificateId?.isSome = true → r.currentStatus.hasTrue ConditionType.ready = true

instance (r : CertificateRequest) : Decidable (Sound r) := inferInstanceAs (Decidable (_ → _))

theorem Sound.kept {r q : CertificateRequest} (h : Sound r) (hk : r.Kept q) : Sound q := by
  rw [Sound, hk.certificateId?, hk.hasTrue]
  exact h

/-- Every object stands under its own key, and the requests are sound. -/
structure Orderly (o : Objects) : Prop where
  request : ∀ key r, o.requests key = some r → r.metadata.key = key ∧ Sound r
  certificate : ∀ key c, o.certificates key = some c → c.metadata.key = key

/-- No two requests have the same certificate id. -/
def Distinct (o : Objects) : Prop :=
  ∀ key key' id, o.idAt? key = some id → o.idAt? key' = some id → key = key'

/-- The request under a key has been issued with a certificate id, and is not deleted. -/
def Holds (o : Objects) (key id : String) : Prop :=
  ∃ r, o.requests key = some r ∧ r.isDeleted = false ∧
    r.currentStatus.hasTrue ConditionType.ready = true ∧ r.metadata.certificateId? = some id

namespace Orderly

theorem putRequest (h : o.Orderly) {r : CertificateRequest} (hr : Sound r) :
    (o.putRequest r).Orderly := by
  refine ⟨fun key q hq => ?_, h.certificate⟩
  by_cases hkey : key = r.metadata.key
  · subst hkey
    rw [putRequest_requests_self] at hq
    cases hq
    exact ⟨rfl, hr⟩
  · rw [putRequest_requests_of_ne hkey] at hq
    exact h.request key q hq

theorem dropRequest (h : o.Orderly) (r : CertificateRequest) : (o.dropRequest r).Orderly := by
  refine ⟨fun key q hq => ?_, h.certificate⟩
  by_cases hkey : key = r.metadata.key
  · subst hkey
    rw [dropRequest_requests_self] at hq
    cases hq
  · rw [dropRequest_requests_of_ne hkey] at hq
    exact h.request key q hq

theorem putCertificate (h : o.Orderly) (c : Certificate) : (o.putCertificate c).Orderly := by
  refine ⟨h.request, fun key d hd => ?_⟩
  by_cases hkey : key = c.metadata.key
  · subst hkey
    rw [putCertificate_certificates_self] at hd
    cases hd
    rfl
  · rw [putCertificate_certificates_of_ne hkey] at hd
    exact h.certificate key d hd

/-- Where only the finalizer of one request goes, the others stay. -/
theorem of_releases {r : CertificateRequest} (ho : o.Orderly) (hr : Sound r)
    (h : o.Answers events o') (ha : Alone events)
    (hc : ∀ e ∈ events, e.question.changesRequest = true → e.question = .removeFinalizer r) :
    o'.Orderly ∧ ∀ key, key ≠ r.metadata.key → o'.requests key = o.requests key := by
  induction h with
  | rest => exact ⟨ho, fun _ _ => rfl⟩
  | next he _ ih =>
    obtain ⟨hquestion, hrest⟩ := never_cons.mp ha
    have hlater := fun e he => hc e (List.mem_cons_of_mem _ he)
    cases he with
    | found => exact ih ho hrest hlater
    | unread => exact ih ho hrest hlater
    -- No write but the removal of the finalizer changes a request.
    | stored => cases hc _ List.mem_cons_self rfl
    | guarded => cases hc _ List.mem_cons_self rfl
    | released hkept =>
      cases hc _ List.mem_cons_self rfl
      obtain ⟨horderly, hothers⟩ := ih (ho.putRequest (hr.kept hkept)) hrest hlater
      refine ⟨horderly, fun key hkey => (hothers key hkey).trans ?_⟩
      exact putRequest_requests_of_ne (by rwa [hkept.metadata.key])
    | removed =>
      cases hc _ List.mem_cons_self rfl
      obtain ⟨horderly, hothers⟩ := ih (ho.dropRequest r) hrest hlater
      exact ⟨horderly, fun key hkey =>
        (hothers key hkey).trans (dropRequest_requests_of_ne hkey)⟩
    | annotated => cases hquestion
    | beside => exact ih ho hrest hlater

end Orderly

open Simulation (World)

def ofWorld (w : World) : Objects := ⟨w.requests.get?, w.certificates.get?⟩

theorem ofWorld_putRequest (w : World) (r : CertificateRequest) :
    ofWorld (w.putRequest r) = (ofWorld w).putRequest r := by
  rw [ofWorld, putRequest, ofWorld, World.putRequest, Objects.mk.injEq]
  refine ⟨?_, rfl⟩
  funext key
  rw [Dict.get?_insert, Function.update_apply]
  simp only [eq_comm]

theorem ofWorld_putCertificate (w : World) (c : Certificate) :
    ofWorld (w.putCertificate c) = (ofWorld w).putCertificate c := by
  rw [ofWorld, putCertificate, ofWorld, World.putCertificate, Objects.mk.injEq]
  refine ⟨rfl, ?_⟩
  funext key
  rw [Dict.get?_insert, Function.update_apply]
  simp only [eq_comm]

theorem orderly_ofWorld {w : World}
    (hr : ∀ e ∈ w.requests.entries, e.2.metadata.key = e.1 ∧ Sound e.2)
    (hc : ∀ e ∈ w.certificates.entries, e.2.metadata.key = e.1) : (ofWorld w).Orderly :=
  ⟨fun _ _ h => hr _ (Dict.mem_of_find_eq_some h), fun _ _ h => hc _ (Dict.mem_of_find_eq_some h)⟩

theorem distinct_ofWorld {w : World} (h : ∀ e ∈ w.requests.entries, ∀ e' ∈ w.requests.entries,
    e.2.metadata.certificateId?.isSome = true →
      e.2.metadata.certificateId? = e'.2.metadata.certificateId? → e.1 = e'.1) :
    (ofWorld w).Distinct := by
  intro key key' id hkey hkey'
  obtain ⟨r, hr, hid⟩ := Option.bind_eq_some_iff.mp hkey
  obtain ⟨r', hr', hid'⟩ := Option.bind_eq_some_iff.mp hkey'
  exact h _ (Dict.mem_of_find_eq_some hr) _ (Dict.mem_of_find_eq_some hr') (by simp [hid])
    (hid.trans hid'.symm)

theorem kept_guard (r : CertificateRequest) (present : Bool) : r.Kept (World.guard r present) :=
  ⟨⟨rfl, rfl, rfl, fun _ => rfl⟩, rfl⟩

/-- A world whose store does not fail serves every question, and goes on not to fail. -/
theorem serves_answer {w : World} (h : w.failing = []) (q : Ask) :
    (ofWorld w).Serves ⟨q, (w.answer q).1⟩ (ofWorld (w.answer q).2) ∧
      (w.answer q).2.failing = [] := by
  -- No call of the store is set to fail, so every write is done.
  have hnone (c : StoreCall) : w.failure? c = none := by
    rw [World.failure?, h]
    rfl
  cases q with
  | readCertificate ns name =>
    simp only [World.answer, World.read, hnone]
    exact ⟨.found ns name, h⟩
  | storeRequest before after =>
    simp only [World.answer, World.write, hnone, ofWorld_putRequest]
    exact ⟨.stored (.refl after), h⟩
  | addFinalizer r =>
    simp only [World.answer, World.write, hnone, ofWorld_putRequest]
    exact ⟨.guarded (kept_guard r true), h⟩
  | removeFinalizer r =>
    simp only [World.answer, World.write, hnone, ofWorld_putRequest]
    exact ⟨.released (kept_guard r false), h⟩
  | storeAnnotations c =>
    simp only [World.answer, World.write, hnone, ofWorld_putCertificate]
    exact ⟨.annotated (.refl c.metadata), h⟩
  | storeIssuerStatus i =>
    simp only [World.answer, World.write, hnone]
    exact ⟨.beside rfl rfl, h⟩
  | _ => exact ⟨.beside rfl rfl, h⟩

theorem answers_run {α : Type} (p : Pass α) {w : World} (h : w.failing = []) :
    (ofWorld w).Answers (p.run World.answer w).events (ofWorld (p.run World.answer w).state) ∧
      (p.run World.answer w).state.failing = [] := by
  induction p generalizing w with
  | done => exact ⟨.rest _, h⟩
  | ask q next ih =>
    obtain ⟨hserves, hfine⟩ := serves_answer h q
    obtain ⟨hanswers, hlater⟩ := ih (w.answer q).1 hfine
    exact ⟨.next hserves hanswers, hlater⟩

end Objects

end CertBroker
