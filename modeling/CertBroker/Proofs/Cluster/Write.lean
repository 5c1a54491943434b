import CertBroker.Pass.Talk
import CertBroker.Proofs.Cluster.Stored
import CertBroker.Proofs.Pass.Events
import CertBroker.Proofs.Program.Trace

namespace CertBroker

open Json

/-- A write to a request. -/
inductive Write where
  | annotations (request : CertificateRequest)
  /-- To the given version. -/
  | status (request : CertificateRequest) (version : Option String)
  /-- With our finalizer, or without it. -/
  | finalizer (request : CertificateRequest) (present : Bool)
deriving DecidableEq

namespace Write

def request : Write → CertificateRequest
  | .annotations r => r
  | .status r _ => r
  | .finalizer r _ => r

def address (w : Write) : Api.Address := Store.addressOf Store.requestKind w.request.metadata

def part : Write → String
  | .status _ _ => Api.statusPart
  | _ => ""

def version : Write → Option String
  | .annotations r => r.metadata.resourceVersion
  | .status _ v => v
  | .finalizer r _ => r.metadata.resourceVersion

/-- What a write changes in the metadata. -/
def noted : Write → List (String × Json)
  | .annotations r => Store.annotationsChange r.metadata.annotations
  | .status _ _ => []
  | .finalizer r present => Store.finalizersChange (r.metadata.finalizersWith present)

/-- What a write changes beside the metadata. -/
def beside : Write → List (String × Json)
  | .status r _ => member "status" (r.status.elim .null RequestStatus.toJson)
  | _ => []

def change (w : Write) : List (String × Json) := Store.metadataChange w.version w.noted ++ w.beside

def talk (w : Write) : Api.Talk CertificateRequest :=
  Store.write CertificateRequest.ofJson? w.address w.part (.object w.change)

end Write

/-- A write that was sent, with what was answered. -/
abbrev Sent : Type := Program.Event Write fun _ => Except Failure CertificateRequest

abbrev Writing (α : Type) : Type :=
  ExceptT Failure (Program Write fun _ => Except Failure CertificateRequest) α

namespace Writing

variable {α β : Type}

/-- What is said to the API server for it. -/
def talk (p : Writing α) : Api.Talk α := ExceptT.mk (p.run.lower fun w => w.talk.run)

theorem talk_bind (p : Writing α) (f : α → Writing β) :
    (p >>= f).talk = p.talk >>= fun a => (f a).talk := by
  apply ExceptT.ext
  have hrun : (p >>= f).talk.run = (p >>= f).run.lower fun w => w.talk.run := rfl
  rw [hrun, ExceptT.run_bind, Program.lower_bind, ExceptT.run_bind]
  congr 1
  funext r
  cases r <;> rfl

end Writing

def Write.send (w : Write) : Writing CertificateRequest := Program.put w

theorem Write.talk_send (w : Write) : w.send.talk = w.talk := Program.lower_put _ w

/-- Storing the status to a version. -/
def storingStatus (before after : CertificateRequest) (version : Option String) : Writing Unit :=
  if before.status = after.status then pure () else do
    let _ ← (Write.status after version).send

def storing (before after : CertificateRequest) : Writing Unit :=
  if before.metadata.annotations = after.metadata.annotations then
    storingStatus before after after.metadata.resourceVersion
  else do
    let written ← (Write.annotations after).send
    storingStatus before after written.metadata.resourceVersion

theorem talk_storingStatus (before after : CertificateRequest) (version : Option String) :
    (storingStatus before after version).talk =
      if before.status = after.status then pure () else Store.writeStatus after version := by
  unfold storingStatus
  split
  next => rfl
  next =>
    rw [Writing.talk_bind, Write.talk_send]
    rfl

theorem talk_storing (before after : CertificateRequest) :
    (storing before after).talk = Store.storeRequest before after := by
  unfold storing Store.storeRequest
  by_cases ha : before.metadata.annotations = after.metadata.annotations
  · simp only [if_pos ha, pure_bind]
    exact talk_storingStatus before after _
  · simp only [if_neg ha]
    rw [Writing.talk_bind, Write.talk_send, Store.writeAnnotations, bind_assoc]
    congr 1
    funext written
    rw [talk_storingStatus, pure_bind]

def releasing (r : CertificateRequest) : Writing Unit := do
  let _ ← (Write.finalizer r false).send

theorem Write.talk_finalizer (r : CertificateRequest) (present : Bool) :
    (Write.finalizer r present).talk = Store.writeFinalizer r present := by
  simp only [Write.talk, Write.change, Write.beside, List.append_nil]
  rfl

theorem talk_releasing (r : CertificateRequest) :
    (releasing r).talk = Store.removeFinalizer r := by
  rw [releasing, Writing.talk_bind, Write.talk_send, Write.talk_finalizer]
  rfl

/-- The writes by which a question changes the request, if it does. -/
def Ask.writes? : (q : Ask) →
    Option (Program Write (fun _ => Except Failure CertificateRequest) q.Answer)
  | .storeRequest before after => some (storing before after).run
  | .addFinalizer r => some (Write.finalizer r true).send.run
  | .removeFinalizer r => some (releasing r).run
  | _ => none

theorem Ask.changesRequest_of_writes? {q : Ask}
    {p : Program Write (fun _ => Except Failure CertificateRequest) q.Answer}
    (h : q.writes? = some p) : q.changesRequest = true := by
  cases q <;> first | rfl | cases h

theorem Ask.changesRequest_of_unwritten {q : Ask} (h : q.writes? = none) :
    q.changesRequest = false := by
  cases q <;> first | rfl | cases h

/-- What is said to the API server to change the request are these writes. -/
theorem Ask.talk?_of_writes? {q : Ask}
    {p : Program Write (fun _ => Except Failure CertificateRequest) q.Answer}
    (h : q.writes? = some p) : q.talk? = some (p.lower fun w => w.talk.run) := by
  cases q with
  | storeRequest before after =>
    cases h
    exact congrArg (fun t => some t.run) (talk_storing before after).symm
  | addFinalizer r =>
    cases h
    have htalk := (Write.talk_send (.finalizer r true)).trans (Write.talk_finalizer r true)
    exact congrArg (fun t => some t.run) htalk.symm
  | removeFinalizer r =>
    cases h
    exact congrArg (fun t => some t.run) (talk_releasing r).symm
  | _ => cases h

/-- What can be sent and come of storing a request. -/
inductive Stores (before after : CertificateRequest) : List Sent → Except Failure Unit → Prop
  | nothing (ha : before.metadata.annotations = after.metadata.annotations)
      (hs : before.status = after.status) : Stores before after [] (.ok ())
  | status (ha : before.metadata.annotations = after.metadata.annotations)
      (hs : before.status ≠ after.status) (answer : Except Failure CertificateRequest) :
      Stores before after [⟨.status after after.metadata.resourceVersion, answer⟩]
        (answer.map fun _ => ())
  | failed (ha : before.metadata.annotations ≠ after.metadata.annotations) (f : Failure) :
      Stores before after [⟨.annotations after, .error f⟩] (.error f)
  | annotations (ha : before.metadata.annotations ≠ after.metadata.annotations)
      (hs : before.status = after.status) (written : CertificateRequest) :
      Stores before after [⟨.annotations after, .ok written⟩] (.ok ())
  | both (ha : before.metadata.annotations ≠ after.metadata.annotations)
      (hs : before.status ≠ after.status) (written : CertificateRequest)
      (answer : Except Failure CertificateRequest) :
      Stores before after [⟨.annotations after, .ok written⟩,
        ⟨.status after written.metadata.resourceVersion, answer⟩] (answer.map fun _ => ())

theorem trace_send {w : Write} {sent : List Sent}
    {answer : Except Failure CertificateRequest} :
    Program.Trace w.send.run sent answer ↔ sent = [⟨w, answer⟩] := Program.trace_put_iff

theorem trace_storingStatus {before after : CertificateRequest} {version : Option String}
    {sent : List Sent} {outcome : Except Failure Unit}
    (h : Program.Trace (storingStatus before after version).run sent outcome) :
    (before.status = after.status ∧ sent = [] ∧ outcome = .ok ()) ∨
      ∃ answer, before.status ≠ after.status ∧ sent = [⟨.status after version, answer⟩] ∧
        outcome = answer.map fun _ => () := by
  unfold storingStatus at h
  split at h
  next hs =>
    obtain ⟨rfl, rfl⟩ := Program.trace_done_iff.mp h
    exact .inl ⟨hs, rfl, rfl⟩
  next hs =>
    rw [ExceptT.run_bind] at h
    obtain ⟨answer, first, second, rfl, hsend, hrest⟩ := Program.trace_bind_iff.mp h
    cases trace_send.mp hsend
    cases answer with
    | ok written =>
      obtain ⟨rfl, rfl⟩ := Program.trace_done_iff.mp hrest
      exact .inr ⟨_, hs, rfl, rfl⟩
    | error f =>
      obtain ⟨rfl, rfl⟩ := Program.trace_done_iff.mp hrest
      exact .inr ⟨_, hs, rfl, rfl⟩

theorem stores_of_trace {before after : CertificateRequest} {sent : List Sent}
    {outcome : Except Failure Unit}
    (h : Program.Trace (storing before after).run sent outcome) :
    Stores before after sent outcome := by
  unfold storing at h
  split at h
  next ha =>
    rcases trace_storingStatus h with ⟨hs, rfl, rfl⟩ | ⟨answer, hs, rfl, rfl⟩
    · exact .nothing ha hs
    · exact .status ha hs answer
  next ha =>
    rw [ExceptT.run_bind] at h
    obtain ⟨answer, first, second, rfl, hsend, hrest⟩ := Program.trace_bind_iff.mp h
    cases trace_send.mp hsend
    cases answer with
    | error f =>
      obtain ⟨rfl, rfl⟩ := Program.trace_done_iff.mp hrest
      exact .failed ha f
    | ok written =>
      rcases trace_storingStatus hrest with ⟨hs, rfl, rfl⟩ | ⟨answer, hs, rfl, rfl⟩
      · exact .annotations ha hs written
      · exact .both ha hs written answer

/-- What is sent for an event that changes the request. -/
inductive Dispatched : Event → List Sent → Prop
  | stored {before after : CertificateRequest} {answer : Except Failure Unit} {sent : List Sent}
      (h : Stores before after sent answer) :
      Dispatched ⟨.storeRequest before after, answer⟩ sent
  | added (r : CertificateRequest) (answer : Except Failure CertificateRequest) :
      Dispatched ⟨.addFinalizer r, answer⟩ [⟨.finalizer r true, answer⟩]
  | removed (r : CertificateRequest) (answer : Except Failure CertificateRequest) :
      Dispatched ⟨.removeFinalizer r, answer.map fun _ => ()⟩ [⟨.finalizer r false, answer⟩]

theorem dispatched_of_trace {e : Event} {sent : List Sent}
    {p : Program Write (fun _ => Except Failure CertificateRequest) e.question.Answer}
    (hp : e.question.writes? = some p) (h : Program.Trace p sent e.answer) :
    Dispatched e sent := by
  obtain ⟨q, answer⟩ := e
  cases q with
  | storeRequest before after =>
    cases hp
    exact .stored (stores_of_trace h)
  | addFinalizer r =>
    cases hp
    cases trace_send.mp h
    exact .added r answer
  | removeFinalizer r =>
    cases hp
    rw [releasing, ExceptT.run_bind] at h
    obtain ⟨written, _, rest, rfl, hsend, hdone⟩ := Program.trace_bind_iff.mp h
    cases trace_send.mp hsend
    cases written with
    | ok q =>
      obtain ⟨rfl, rfl⟩ := Program.trace_done_iff.mp hdone
      exact .removed r (.ok q)
    | error f =>
      obtain ⟨rfl, rfl⟩ := Program.trace_done_iff.mp hdone
      exact .removed r (.error f)
  | _ => cases hp

end CertBroker
