import CertBroker.Proofs.Cluster.Objects
import CertBroker.Proofs.Cluster.Status
import CertBroker.Proofs.Program.Trace

namespace CertBroker

namespace Ask

/-- Whether the answer to a question may differ from one time to the next: it is the clock's, or
tells what came of a write. -/
def varies : Ask → Bool
  | .now => true
  | q => q.isWrite

theorem isWrite_of_varies {q : Ask} (h : q.varies = false) : q.isWrite = false := by
  cases q <;> first | rfl | exact h

end Ask

/-- No clock is read, and nothing is written. -/
abbrev Fixed : List Event → Prop := Never Ask.varies

theorem Fixed.unwritten {events : List Event} (h : Fixed events) : Unwritten events :=
  h.mono fun _ hq => Ask.isWrite_of_varies hq

/-- A write that failed. -/
def isFailedWrite : Event → Bool
  | ⟨.storeRequest _ _, .error _⟩ => true
  | ⟨.addFinalizer _, .error _⟩ => true
  | ⟨.removeFinalizer _, .error _⟩ => true
  | ⟨.storeAnnotations _, .error _⟩ => true
  | ⟨.storeIssuerStatus _, .error _⟩ => true
  | _ => false

theorem isWrite_of_isFailedWrite {e : Event} (h : isFailedWrite e = true) :
    e.question.isWrite = true := by
  unfold isFailedWrite at h
  split at h <;> first | rfl | cases h

/-- The same request as the server gives it, whatever else the server sets: also the times of
conditions may have lost something on the way. -/
structure CertificateRequest.Returned (r q : CertificateRequest) : Prop where
  metadata : r.metadata.Kept q.metadata
  spec : q.spec = r.spec
  conditions : q.currentStatus.conditions.map Condition.untimed =
    r.currentStatus.conditions.map Condition.untimed

namespace CertificateRequest.Returned

variable {r q : CertificateRequest}

theorem refl (r : CertificateRequest) : r.Returned r := ⟨.refl r.metadata, rfl, rfl⟩

theorem isDeleted (h : r.Returned q) : q.isDeleted = r.isDeleted := by
  rw [CertificateRequest.isDeleted, h.metadata.deletionTimestamp, CertificateRequest.isDeleted]

theorem requestId? (h : r.Returned q) : q.metadata.requestId? = r.metadata.requestId? :=
  h.metadata.entry? _

theorem certificateId? (h : r.Returned q) :
    q.metadata.certificateId? = r.metadata.certificateId? := h.metadata.entry? _

theorem parentName? (h : r.Returned q) : q.metadata.parentName? = r.metadata.parentName? :=
  h.metadata.entry? _

theorem marks (h : r.Returned q) : q.currentStatus.marks = r.currentStatus.marks :=
  RequestStatus.marks_eq_of_untimed h.conditions

theorem terminal? (h : r.Returned q) : q.currentStatus.terminal? = r.currentStatus.terminal? :=
  RequestStatus.terminal?_eq_of_marks h.marks

theorem hasTrue (h : r.Returned q) (type : String) :
    q.currentStatus.hasTrue type = r.currentStatus.hasTrue type :=
  RequestStatus.any_condition_eq h.marks _ fun m => m.2.1 == .yes

theorem isDeniedByApprover (h : r.Returned q) :
    q.currentStatus.isDeniedByApprover = r.currentStatus.isDeniedByApprover :=
  RequestStatus.any_condition_eq h.marks _ fun m => m.2.1 == .yes && m.2.2 != Reason.pki

end CertificateRequest.Returned

namespace Objects

variable {reply : (q : Ask) → q.Answer} {o o' o'' p p' : Objects} {e : Event}
  {events first second : List Event}

/-- How an event goes together with the objects before and after it. Questions that do not vary are
answered as always; a Certificate is read as it is stored, if it can be read at all. What a write
does not concern stays, and a deleted request is gone with its last finalizer. -/
inductive Repeats (reply : (q : Ask) → q.Answer) : Objects → Event → Objects → Prop
  | told {o : Objects} (now : Time) : Repeats reply o ⟨.now, now⟩ o
  | replied {o : Objects} {q : Ask} (hv : q.varies = false) (hp : q.concernsParent = false) :
      Repeats reply o ⟨q, reply q⟩ o
  | found {o : Objects} (ns name : String) :
      Repeats reply o ⟨.readCertificate ns name,
        (reply (.readCertificate ns name)).map fun _ => o.certificates (objectKey ns name)⟩ o
  | stored {o : Objects} {before after q : CertificateRequest} (h : after.Returned q)
      (hf : q.metadata.hasFinalizer = after.metadata.hasFinalizer) :
      Repeats reply o ⟨.storeRequest before after, .ok ()⟩ (o.putRequest q)
  | guarded {o : Objects} {r q : CertificateRequest} (h : r.Returned q)
      (hf : q.metadata.hasFinalizer = true) :
      Repeats reply o ⟨.addFinalizer r, .ok q⟩ (o.putRequest q)
  | released {o : Objects} {r q : CertificateRequest} (h : r.Returned q)
      (hf : q.metadata.hasFinalizer = false) :
      Repeats reply o ⟨.removeFinalizer r, .ok ()⟩ (o.putRequest q)
  | removed {o : Objects} {r : CertificateRequest} :
      Repeats reply o ⟨.removeFinalizer r, .ok ()⟩ (o.dropRequest r)
  | annotated {o : Objects} {c d : Certificate} (h : c.metadata.Kept d.metadata) :
      Repeats reply o ⟨.storeAnnotations c, .ok ()⟩ (o.putCertificate d)
  | refused {o : Objects} {e : Event} (h : isFailedWrite e = true) : Repeats reply o e o

inductive Throughout (reply : (q : Ask) → q.Answer) : Objects → List Event → Objects → Prop
  | rest (o : Objects) : Throughout reply o [] o
  | next {o o' o'' : Objects} {e : Event} {events : List Event} (he : o.Repeats reply e o')
      (h : Throughout reply o' events o'') : Throughout reply o (e :: events) o''

@[simp] theorem throughout_nil_iff : o.Throughout reply [] o' ↔ o' = o := by
  constructor
  · rintro ⟨⟩
    rfl
  · rintro rfl
    exact .rest o'

@[simp] theorem throughout_cons_iff : o.Throughout reply (e :: events) o'' ↔
    ∃ between, o.Repeats reply e between ∧ between.Throughout reply events o'' := by
  constructor
  · rintro ⟨⟩
    exact ⟨_, ‹_›, ‹_›⟩
  · rintro ⟨between, he, h⟩
    exact .next he h

@[simp] theorem throughout_append_iff : o.Throughout reply (first ++ second) o'' ↔
    ∃ between, o.Throughout reply first between ∧ between.Throughout reply second o'' := by
  induction first generalizing o with
  | nil => simp
  | cons e first ih =>
    simp only [List.cons_append, throughout_cons_iff, ih]
    constructor
    · rintro ⟨between, he, between', hfirst, hsecond⟩
      exact ⟨between', ⟨between, he, hfirst⟩, hsecond⟩
    · rintro ⟨between', ⟨between, he, hfirst⟩, hsecond⟩
      exact ⟨between, he, between', hfirst, hsecond⟩

theorem Repeats.eq_of_unwritten (h : o.Repeats reply e o') (hu : e.question.isWrite = false) :
    o' = o := by
  cases h with
  | refused h => exact absurd hu (by simp [isWrite_of_isFailedWrite h])
  | _ => first | rfl | cases hu

theorem Repeats.guards {r q : CertificateRequest} {answer : Except Failure CertificateRequest}
    (h : o.Repeats reply ⟨.addFinalizer r, answer⟩ o') (hok : answer = .ok q) :
    r.Returned q ∧ q.metadata.hasFinalizer = true ∧ o' = o.putRequest q := by
  cases h with
  | replied hv => cases hv
  | guarded hreturned hf =>
    cases hok
    exact ⟨hreturned, hf, rfl⟩
  | refused hf =>
    subst hok
    cases hf

theorem Repeats.releases {r : CertificateRequest} {answer : Except Failure Unit}
    (h : o.Repeats reply ⟨.removeFinalizer r, answer⟩ o') (hok : answer = .ok ()) :
    o' = o.dropRequest r ∨
      ∃ q, r.Returned q ∧ q.metadata.hasFinalizer = false ∧ o' = o.putRequest q := by
  cases h with
  | replied hv => cases hv
  | released hreturned hf => exact .inr ⟨_, hreturned, hf, rfl⟩
  | removed => exact .inl rfl
  | refused hf =>
    subst hok
    cases hf

theorem Repeats.stores {before after : CertificateRequest} {answer : Except Failure Unit}
    (h : o.Repeats reply ⟨.storeRequest before after, answer⟩ o') (hok : answer = .ok ()) :
    ∃ q, after.Returned q ∧ q.metadata.hasFinalizer = after.metadata.hasFinalizer ∧
      o' = o.putRequest q := by
  cases h with
  | replied hv => cases hv
  | stored hreturned hf => exact ⟨_, hreturned, hf, rfl⟩
  | refused hf =>
    subst hok
    cases hf

/-- Only a write to a Certificate changes one. -/
theorem Repeats.certificates (h : o.Repeats reply e o') (hc : e.question.concernsParent = false) :
    o'.certificates = o.certificates := by
  cases h with
  | annotated => cases hc
  | _ => rfl

theorem Throughout.eq_of_unwritten (h : o.Throughout reply events o') (hu : Unwritten events) :
    o' = o := by
  induction h with
  | rest => rfl
  | next he _ ih =>
    obtain ⟨hquestion, hrest⟩ := never_cons.mp hu
    rw [ih hrest, he.eq_of_unwritten hquestion]

/-- A question that does not vary has the same answer from objects with the same Certificates. -/
theorem Repeats.unique {q : Ask} {answer answer' : q.Answer}
    (h : o.Repeats reply ⟨q, answer⟩ o') (h' : p.Repeats reply ⟨q, answer'⟩ p')
    (hv : q.varies = false) (hc : q.concernsParent = false ∨ p.certificates = o.certificates) :
    answer' = answer := by
  have hwrite := Ask.isWrite_of_varies hv
  cases h with
  | replied _ hp =>
    cases h' with
    | replied => rfl
    | found => cases hp
    | refused hfailed => exact absurd hwrite (by simp [isWrite_of_isFailedWrite hfailed])
    | _ => cases hv
  | found ns name =>
    cases h' with
    | replied _ hp => cases hp
    | found =>
      rcases hc with hc | hc
      · cases hc
      · rw [hc]
    | refused hfailed => cases hfailed
  | refused hfailed => exact absurd hwrite (by simp [isWrite_of_isFailedWrite hfailed])
  | _ => cases hv

/-- Of what a program does that reads no clock and writes nothing there is only one. -/
theorem Throughout.unique {α : Type} {prog : Pass α} {again : List Event} {a b : α}
    (h : Program.Trace prog events a) (h' : Program.Trace prog again b)
    (ho : o.Throughout reply events o') (hp : p.Throughout reply again p') (hf : Fixed events)
    (hc : Alone events ∨ p.certificates = o.certificates) : again = events ∧ b = a := by
  induction h generalizing o p again with
  | done a => cases h' with
    | done => exact ⟨rfl, rfl⟩
  | @ask q next answer events a _ ih =>
    cases h' with
    | @ask _ _ answer' again b h' =>
      obtain ⟨between, he, hrun⟩ := throughout_cons_iff.mp ho
      obtain ⟨between', he', hrerun⟩ := throughout_cons_iff.mp hp
      obtain ⟨hquestion, hrest⟩ := never_cons.mp hf
      have hanswer : answer' = answer :=
        he.unique he' hquestion (hc.imp_left fun ha => (never_cons.mp ha).1)
      subst hanswer
      obtain rfl := he.eq_of_unwritten (Ask.isWrite_of_varies hquestion)
      obtain rfl := he'.eq_of_unwritten (Ask.isWrite_of_varies hquestion)
      obtain ⟨rfl, rfl⟩ := ih h' hrun hrerun hrest (hc.imp_left fun ha => (never_cons.mp ha).2)
      exact ⟨rfl, rfl⟩

open Simulation (World)

/-- Two worlds with the same of all that is not read back: they differ in the requests and
Certificates at most, in the clock, and in what the PKI keeps for itself. -/
structure Steady (w v : World) : Prop where
  issuers : v.issuers = w.issuers
  secrets : v.secrets = w.secrets
  ingresses : v.ingresses = w.ingresses
  names : v.names = w.names
  silent : v.silent = w.silent
  failing : v.failing = w.failing
  submissions : v.pki.requests = w.pki.requests
  refusals : v.pki.failing = w.pki.failing
  refusal : v.pki.refusal = w.pki.refusal
  nextId : v.pki.nextId = w.pki.nextId

/-- Nothing of what questions are answered from changes with an event. -/
def changesNothing (e : Event) : Bool :=
  match e.question with
  | .storeIssuerStatus _ => false
  | _ => (acceptedId? e).isNone

theorem failure?_of_steady {w v : World} (h : Steady w v) (c : StoreCall) :
    v.failure? c = w.failure? c := by
  rw [World.failure?, h.failing, World.failure?]

theorem answer_of_steady {w v : World} (h : Steady w v) {q : Ask} (hv : q.varies = false)
    (hc : q.concernsParent = false) : (v.answer q).1 = (w.answer q).1 := by
  have hread {α : Type} (c : StoreCall) (found : α) : v.read c found = w.read c found := by
    rw [World.read, failure?_of_steady h, World.read]
  cases q with
  | readIssuer => simp only [World.answer, hread, h.issuers]
  | readSecret => simp only [World.answer, hread, h.secrets]
  | readIngress => simp only [World.answer, hread, h.ingresses]
  | lookUp => simp only [World.answer, World.lookUp, h.names, h.silent]
  | openSession =>
    simp only [World.answer, Pki.InMemory.build, h.refusal]
    split <;> rfl
  | call session call =>
    simp only [World.answer, Pki.InMemory.call, h.refusals]
    split
    next => rfl
    next =>
      cases call with
      | poll id =>
        simp only [Pki.InMemory.perform, Pki.InMemory.record, h.submissions]
        split <;> rfl
      | enroll =>
        simp only [Pki.InMemory.perform, Pki.InMemory.record, Pki.InMemory.createPending, h.nextId]
      | renew =>
        simp only [Pki.InMemory.perform, Pki.InMemory.record, Pki.InMemory.createPending, h.nextId]
      | checkHealth => rfl
      | revoke => rfl
  | readCertificate => cases hc
  | _ => cases hv

theorem Steady.refl (w : World) : Steady w w := by
  constructor <;> rfl

theorem Steady.trans {w v u : World} (h : Steady w v) (h' : Steady v u) : Steady w u :=
  ⟨h'.issuers.trans h.issuers, h'.secrets.trans h.secrets, h'.ingresses.trans h.ingresses,
    h'.names.trans h.names, h'.silent.trans h.silent, h'.failing.trans h.failing,
    h'.submissions.trans h.submissions, h'.refusals.trans h.refusals,
    h'.refusal.trans h.refusal, h'.nextId.trans h.nextId⟩

theorem steady_write {α : Type} (w : World) (c : StoreCall) (value : α) {written : World}
    (h : Steady w written) : Steady w (w.write c value written).2 := by
  unfold World.write
  split
  next => exact .refl w
  next => exact h

theorem steady_answer (w : World) (q : Ask) (h : changesNothing ⟨q, (w.answer q).1⟩ = true) :
    Steady w (w.answer q).2 := by
  cases q with
  | storeRequest before after => exact steady_write w _ _ (by constructor <;> rfl)
  | addFinalizer r => exact steady_write w _ _ (by constructor <;> rfl)
  | removeFinalizer r => exact steady_write w _ _ (by constructor <;> rfl)
  | storeAnnotations c => exact steady_write w _ _ (by constructor <;> rfl)
  | storeIssuerStatus => cases h
  | openSession =>
    simp only [World.answer, Pki.InMemory.build]
    split <;> constructor <;> rfl
  | call session call =>
    simp only [World.answer, Pki.InMemory.call] at h ⊢
    split
    next => constructor <;> rfl
    next hworks =>
      rw [hworks] at h
      cases call with
      | poll id =>
        simp only [Pki.InMemory.perform]
        split <;> constructor <;> rfl
      | enroll => cases h
      | renew => cases h
      | checkHealth => constructor <;> rfl
      | revoke => constructor <;> rfl
  | _ => exact .refl w

theorem returned_guard (r : CertificateRequest) (present : Bool) :
    r.Returned (World.guard r present) := ⟨⟨rfl, rfl, rfl, fun _ => rfl⟩, rfl, rfl⟩

theorem hasFinalizer_guard (r : CertificateRequest) (present : Bool) :
    (World.guard r present).metadata.hasFinalizer = present := by
  cases present <;> simp [World.guard, Metadata.withFinalizer, Metadata.hasFinalizer,
    Metadata.finalizersWith]

theorem repeats_answer {w v : World} (h : Steady w v) (q : Ask)
    (hq : changesNothing ⟨q, (v.answer q).1⟩ = true) :
    (ofWorld v).Repeats (fun q => (w.answer q).1) ⟨q, (v.answer q).1⟩
      (ofWorld (v.answer q).2) := by
  cases q with
  | now => exact .told v.clock
  | readCertificate ns name =>
    have hanswer : (v.answer (.readCertificate ns name)).1 =
        ((w.answer (.readCertificate ns name)).1).map
          fun _ => (ofWorld v).certificates (objectKey ns name) := by
      simp only [World.answer, World.read, failure?_of_steady h]
      split <;> rfl
    rw [hanswer]
    exact .found ns name
  | storeRequest before after =>
    simp only [World.answer, World.write]
    split
    next => exact .refused rfl
    next =>
      rw [ofWorld_putRequest]
      exact .stored (.refl after) rfl
  | addFinalizer r =>
    simp only [World.answer, World.write]
    split
    next => exact .refused rfl
    next =>
      rw [ofWorld_putRequest]
      exact .guarded (returned_guard r true) (hasFinalizer_guard r true)
  | removeFinalizer r =>
    simp only [World.answer, World.write]
    split
    next => exact .refused rfl
    next =>
      rw [ofWorld_putRequest]
      exact .released (returned_guard r false) (hasFinalizer_guard r false)
  | storeAnnotations c =>
    simp only [World.answer, World.write]
    split
    next => exact .refused rfl
    next =>
      rw [ofWorld_putCertificate]
      exact .annotated (.refl c.metadata)
  | storeIssuerStatus => cases hq
  | _ =>
    rw [answer_of_steady h rfl rfl]
    exact .replied rfl rfl

/-- A world answers a pass as it did before, until it accepts a submission. -/
theorem throughout_run {α : Type} {w v : World} (h : Steady w v) (prog : Pass α)
    (hevents : ∀ e ∈ (prog.run World.answer v).events, changesNothing e = true) :
    (ofWorld v).Throughout (fun q => (w.answer q).1) (prog.run World.answer v).events
      (ofWorld (prog.run World.answer v).state) ∧
      Steady w (prog.run World.answer v).state := by
  induction prog generalizing v with
  | done => exact ⟨.rest _, h⟩
  | ask q next ih =>
    have hq : changesNothing ⟨q, (v.answer q).1⟩ = true := hevents _ List.mem_cons_self
    obtain ⟨hthroughout, hsteady⟩ := ih (v.answer q).1 (h.trans (steady_answer v q hq))
      fun e he => hevents e (List.mem_cons_of_mem _ he)
    exact ⟨.next (repeats_answer h q hq) hthroughout, hsteady⟩

end Objects

end CertBroker
