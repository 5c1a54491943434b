import Mathlib.Logic.Relation
import CertBroker.Cluster.Store
import CertBroker.Proofs.Json.Merge
import CertBroker.Proofs.Pass.Course

namespace CertBroker

/-- The version a patch names, as it stands in the metadata. -/
def Json.versionMember? (change : Json) : Option Json :=
  (change.get? "metadata").bind (·.get? "resourceVersion")

namespace Api

abbrev Exchange : Type := Program.Event Request fun _ => Option Http.Response

/-- The version of a request, as an answer gives it. -/
def answeredVersion (answer : Option Http.Response) : Option String :=
  match readAnswer CertificateRequest.ofJson? answer with
  | .ok r => r.metadata.resourceVersion
  | .error _ => none

/-- The version the next patch is based on, after some exchanges. -/
def basis (start : Option String) (earlier : List Exchange) : Option String :=
  earlier.getLast?.elim start fun e => answeredVersion e.answer

theorem basis_cons (start : Option String) (e : Exchange) (rest : List Exchange) :
    basis start (e :: rest) = basis (answeredVersion e.answer) rest := by
  rw [basis, List.getLast?_cons, basis]
  cases rest.getLast? <;> rfl

/-- The answer that an object has another version than the one named. -/
structure Refuses (response : Http.Response) : Prop where
  status : response.status = 409
  /-- An error object in the answer gives the same code. -/
  body : ∃ body, Utf8.decode response.body = .ok body ∧
    ∀ answer, (Json.parse? body).bind status? = some answer → answer.code = 409

theorem Refuses.readAnswer {response : Http.Response} (h : Refuses response) {α : Type}
    (read : Json → Option α) :
    ∃ message, (readAnswer read (some response)).mapError Store.asConflict =
      .error (.conflict message) := by
  obtain ⟨body, hbody, hcode⟩ := h.body
  have herror : response.isError = true := by simp [Http.Response.isError, h.status]
  simp only [Api.readAnswer, hbody, herror, if_true, failureOf, h.status]
  cases hanswer : (Json.parse? body).bind status? with
  | none => exact ⟨_, rfl⟩
  | some answer =>
    exact ⟨answer.message, by simp [Store.asConflict, hcode answer hanswer]⟩

end Api

namespace Store

open Api

/-- The operations of the store that write. -/
inductive Operation where
  | request (before after : CertificateRequest)
  | addFinalizer (request : CertificateRequest)
  | removeFinalizer (request : CertificateRequest)
  | annotations (certificate : Certificate)
  | issuerStatus (issuer : Issuer)

namespace Operation

def talk : Operation → Talk Unit
  | .request before after => storeRequest before after
  | .addFinalizer r => do
    let _ ← Store.addFinalizer r
  | .removeFinalizer r => Store.removeFinalizer r
  | .annotations c => storeAnnotations c
  | .issuerStatus i => storeIssuerStatus i

def metadata : Operation → Metadata
  | .request _ after => after.metadata
  | .addFinalizer r => r.metadata
  | .removeFinalizer r => r.metadata
  | .annotations c => c.metadata
  | .issuerStatus i => i.metadata

def version (op : Operation) : Option String := op.metadata.resourceVersion

/-- Whether the patches name versions. -/
def isVersioned : Operation → Bool
  | .issuerStatus _ => false
  | _ => true

end Operation

theorem trace_patch {α : Type} {read : Json → Option α} {a : Address} {part : String}
    {change : Json} {sent : List Exchange} {outcome : Except Failure α}
    (h : Program.Trace (patch read a part change).run sent outcome) :
    (sent = [] ∧ ∃ f, outcome = .error f) ∨
      ∃ target answer, sent = [⟨.merge target change, answer⟩] ∧
        outcome = readAnswer read answer := by
  rw [patch, ExceptT.run_bind] at h
  obtain ⟨path, _, sent, rfl, hpath, h⟩ := Program.trace_bind_iff.mp h
  obtain ⟨rfl, -⟩ := Program.trace_done_iff.mp hpath
  cases path with
  | error f =>
    obtain ⟨rfl, rfl⟩ := Program.trace_done_iff.mp h
    exact .inl ⟨rfl, f, rfl⟩
  | ok path =>
    simp only [ExceptT.run_bind] at h
    obtain ⟨target, _, sent, rfl, htarget, h⟩ := Program.trace_bind_iff.mp h
    obtain ⟨rfl, -⟩ := Program.trace_done_iff.mp htarget
    cases target with
    | error f =>
      obtain ⟨rfl, rfl⟩ := Program.trace_done_iff.mp h
      exact .inl ⟨rfl, f, rfl⟩
    | ok target =>
      obtain ⟨answer, _, _, rfl, hsend, hread⟩ := Program.trace_bind_iff.mp h
      cases Program.trace_put_iff.mp hsend
      obtain ⟨rfl, rfl⟩ := Program.trace_done_iff.mp hread
      exact .inr ⟨target, answer, rfl, rfl⟩

/-- A write sends one patch, or nothing at all, before it goes on. -/
theorem trace_write_bind {α β : Type} {read : Json → Option α} {a : Address} {part : String}
    {change : Json} {next : α → Talk β} {sent : List Exchange} {outcome : Except Failure β}
    (h : Program.Trace (write read a part change >>= next).run sent outcome) :
    (sent = [] ∧ ∃ f, outcome = .error f) ∨
      ∃ target answer rest, sent = ⟨.merge target change, answer⟩ :: rest ∧
        ((∃ f, (readAnswer read answer).mapError asConflict = .error f ∧ rest = [] ∧
            outcome = .error f) ∨
          ∃ value, readAnswer read answer = .ok value ∧
            Program.Trace (next value).run rest outcome) := by
  rw [ExceptT.run_bind] at h
  obtain ⟨written, _, rest, rfl, hwrite, hrest⟩ := Program.trace_bind_iff.mp h
  obtain ⟨answered, first, _, rfl, hpatch, hlast⟩ := Program.trace_bind_iff.mp hwrite
  obtain ⟨rfl, rfl⟩ := Program.trace_done_iff.mp hlast
  rcases trace_patch hpatch with ⟨rfl, f, rfl⟩ | ⟨target, answer, rfl, rfl⟩
  · obtain ⟨rfl, rfl⟩ := Program.trace_done_iff.mp hrest
    exact .inl ⟨rfl, _, rfl⟩
  · refine .inr ⟨target, answer, rest, rfl, ?_⟩
    cases hread : readAnswer read answer with
    | ok value =>
      rw [hread] at hrest
      exact .inr ⟨value, rfl, hrest⟩
    | error f =>
      rw [hread] at hrest
      obtain ⟨rfl, rfl⟩ := Program.trace_done_iff.mp hrest
      exact .inl ⟨_, rfl, rfl, rfl⟩

theorem trace_write_unit {α : Type} {read : Json → Option α} {a : Address} {part : String}
    {change : Json} {sent : List Exchange} {outcome : Except Failure Unit}
    (h : Program.Trace (write read a part change >>= fun _ => pure ()).run sent outcome) :
    sent = [] ∨ ∃ target answer, sent = [⟨.merge target change, answer⟩] := by
  rcases trace_write_bind h with ⟨rfl, -⟩ | ⟨target, answer, rest, rfl, hend⟩
  · exact .inl rfl
  · have hrest : rest = [] := by
      rcases hend with ⟨f, -, hrest, -⟩ | ⟨value, -, hdone⟩
      · exact hrest
      · exact (Program.trace_done_iff.mp hdone).1
    exact .inr ⟨target, answer, by rw [hrest]⟩

/-- What an operation that names versions can send and come to, from the version it starts at. -/
inductive Chain : Option String → List Exchange → Except Failure Unit → Prop
  | unsent (version : Option String) (outcome : Except Failure Unit) : Chain version [] outcome
  | failed {α : Type} {version : Option String} {target : Http.Target} {change : Json}
      {answer : Option Http.Response} {f : Failure} (read : Json → Option α)
      (hv : change.versionMember? = some (version.elim .null .string))
      (hf : (readAnswer read answer).mapError asConflict = .error f) :
      Chain version [⟨.merge target change, answer⟩] (.error f)
  | written {α : Type} {version : Option String} {target : Http.Target} {change : Json}
      {answer : Option Http.Response} {value : α} (read : Json → Option α)
      (hv : change.versionMember? = some (version.elim .null .string))
      (hr : readAnswer read answer = .ok value) :
      Chain version [⟨.merge target change, answer⟩] (.ok ())
  | further {version : Option String} {target : Http.Target} {change : Json}
      {answer : Option Http.Response} {r : CertificateRequest} {rest : List Exchange}
      {outcome : Except Failure Unit}
      (hv : change.versionMember? = some (version.elim .null .string))
      (hr : readAnswer CertificateRequest.ofJson? answer = .ok r)
      (hrest : Chain r.metadata.resourceVersion rest outcome) :
      Chain version (⟨.merge target change, answer⟩ :: rest) outcome

theorem versionMember?_metadataChange (version : Option String)
    {changes beside : List (String × Json)} (hc : Json.member? "resourceVersion" changes = none)
    (hb : Json.member? "metadata" beside = none) :
    (Json.object (metadataChange version changes ++ beside)).versionMember? =
      some (version.elim .null .string) := by
  have hmetadata : Json.member? "metadata" (metadataChange version changes ++ beside) =
      some (.object (("resourceVersion", version.elim .null .string) :: changes)) := by
    rw [metadataChange, Json.member, List.singleton_append, Json.member?_cons, hb]
    rfl
  rw [Json.versionMember?, Json.get?, hmetadata, Option.bind_some, Json.get?, Json.member?_cons, hc]
  rfl

theorem versionMember?_annotations (m : Metadata) :
    (Json.object (metadataChange m.resourceVersion
      (annotationsChange m.annotations))).versionMember? =
      some (m.resourceVersion.elim .null .string) := by
  rw [← List.append_nil (metadataChange _ _)]
  have hno : Json.member? "resourceVersion" (annotationsChange m.annotations) = none := by
    simp [annotationsChange, Json.member, Json.member?_cons]
  exact versionMember?_metadataChange _ hno rfl

variable {op : Operation} {sent : List Exchange} {outcome : Except Failure Unit}

theorem chain_of_write {α : Type} {version : Option String} {read : Json → Option α} {a : Address}
    {part : String} {change : Json}
    (h : Program.Trace (write read a part change >>= fun _ => pure ()).run sent outcome)
    (hv : change.versionMember? = some (version.elim .null .string)) :
    Chain version sent outcome := by
  rcases trace_write_bind h with ⟨rfl, -⟩ | ⟨target, answer, rest, rfl, hend⟩
  · exact .unsent version outcome
  · rcases hend with ⟨f, hf, rfl, rfl⟩ | ⟨value, hr, hdone⟩
    · exact .failed read hv hf
    · obtain ⟨rfl, rfl⟩ := Program.trace_done_iff.mp hdone
      exact .written read hv hr

theorem chain_of_writeStatus {r : CertificateRequest} {version : Option String}
    (h : Program.Trace (writeStatus r version).run sent outcome) : Chain version sent outcome :=
  chain_of_write h (versionMember?_metadataChange version rfl
    (by simp [Json.member, Json.member?_cons]))

theorem chain_of_writeFinalizer {r : CertificateRequest} {present : Bool}
    (h : Program.Trace (writeFinalizer r present >>= fun _ => pure ()).run sent outcome) :
    Chain r.metadata.resourceVersion sent outcome := by
  refine chain_of_write h ?_
  rw [← List.append_nil (metadataChange _ _)]
  exact versionMember?_metadataChange _ (by simp [finalizersChange, Json.member, Json.member?_cons])
    rfl

theorem chain_of_storeRequest {before after : CertificateRequest}
    (h : Program.Trace (storeRequest before after).run sent outcome) :
    Chain after.metadata.resourceVersion sent outcome := by
  -- The status goes out last, based on whatever version the annotations were answered with.
  have hstatus : ∀ {version : Option String} {sent : List Exchange},
      Program.Trace (if before.status = after.status then pure ()
        else writeStatus after version : Talk Unit).run sent outcome →
      Chain version sent outcome := by
    intro version sent h
    split at h
    next =>
      obtain ⟨rfl, rfl⟩ := Program.trace_done_iff.mp h
      exact .unsent version _
    next => exact chain_of_writeStatus h
  unfold storeRequest at h
  by_cases ha : before.metadata.annotations = after.metadata.annotations
  · simp only [if_pos ha, pure_bind] at h
    exact hstatus h
  · simp only [if_neg ha, writeAnnotations, bind_assoc, pure_bind] at h
    rcases trace_write_bind h with ⟨rfl, -⟩ | ⟨target, answer, rest, rfl, hend⟩
    · exact .unsent _ outcome
    · have hv := versionMember?_annotations after.metadata
      rcases hend with ⟨f, hf, rfl, rfl⟩ | ⟨written, hr, hrest⟩
      · exact .failed _ hv hf
      · exact .further hv hr (hstatus hrest)

/-- Every operation but the one for the status of an issuer chains its patches. -/
theorem chain_of_trace (h : Program.Trace op.talk.run sent outcome)
    (hv : op.isVersioned = true) : Chain op.version sent outcome := by
  cases op with
  | request before after => exact chain_of_storeRequest h
  | addFinalizer r => exact chain_of_writeFinalizer h
  | removeFinalizer r => exact chain_of_writeFinalizer h
  | annotations c => exact chain_of_write h (versionMember?_annotations c.metadata)
  | issuerStatus i => cases hv

/-- The status of an issuer is written by one patch, which names no version. -/
theorem unversioned_of_trace {i : Issuer}
    (h : Program.Trace (Operation.issuerStatus i).talk.run sent outcome) :
    ∀ e ∈ sent, ∃ target change, e.question = .merge target change ∧
      change.versionMember? = none := by
  rcases trace_write_unit h with rfl | ⟨target, answer, rfl⟩
  · simp
  · intro e he
    cases List.mem_singleton.mp he
    exact ⟨target, _, rfl, by simp [Json.versionMember?, Json.get?, Json.member, Json.member?_cons]⟩

namespace Chain

variable {version : Option String} {first later : List Exchange} {e : Exchange}

/-- After some exchanges a chain goes on from the version that was answered last. -/
theorem drop (h : Chain version (first ++ e :: later) outcome) :
    Chain (basis version first) (e :: later) outcome := by
  induction first generalizing version with
  | nil => exact h
  | cons earlier first ih =>
    rw [List.cons_append] at h
    generalize htail : first ++ e :: later = tail at h
    -- Only a patch of annotations that was answered well is followed by another exchange.
    cases h with
    | failed => simp at htail
    | written => simp at htail
    | further hv hr hrest =>
      subst htail
      rw [basis_cons, answeredVersion, hr]
      exact ih hrest

theorem head_versionMember? (h : Chain version (e :: later) outcome) :
    ∃ target change, e.question = .merge target change ∧
      change.versionMember? = some (version.elim .null .string) := by
  cases h with
  | failed read hv hf => exact ⟨_, _, rfl, hv⟩
  | written read hv hr => exact ⟨_, _, rfl, hv⟩
  | further hv hr hrest => exact ⟨_, _, rfl, hv⟩

/-- A patch that is refused is the last one, and the operation fails with a conflict. -/
theorem conflict_of_refuses {response : Http.Response}
    (h : Chain version (e :: later) outcome) (he : e.answer = some response)
    (hr : Refuses response) : later = [] ∧ ∃ message, outcome = .error (.conflict message) := by
  cases h with
  | failed read hv hf =>
    obtain ⟨message, hm⟩ := hr.readAnswer read
    simp only at he
    rw [he, hm] at hf
    cases hf
    exact ⟨rfl, message, rfl⟩
  | written read hv hread =>
    obtain ⟨message, hm⟩ := hr.readAnswer read
    simp only at he
    rw [he] at hread
    simp [hread] at hm
  | further hv hread hrest =>
    obtain ⟨message, hm⟩ := hr.readAnswer CertificateRequest.ofJson?
    simp only at he
    rw [he] at hread
    simp [hread] at hm

end Chain

end Store

namespace Api

/-- A server that answers 409 exactly to the patches that name another version than the stored
one, whatever else it does. -/
structure VersionedServer (σ : Type) where
  /-- The version of the object that a target names. -/
  version : Http.Target → σ → Option String
  /-- What a request can be answered, and what is stored afterwards. -/
  Serves : σ → Request → Http.Response → σ → Prop
  conflict_iff {s s' : σ} {target : Http.Target} {change : Json} {response : Http.Response} :
    Serves s (.merge target change) response s' → (response.status = 409 ↔
      ∃ v, change.versionMember? = some (.string v) ∧ version target s ≠ some v)
  unchanged {s s' : σ} {request : Request} {response : Http.Response} :
    Serves s request response s' → response.status = 409 → s' = s
  refuses {s s' : σ} {request : Request} {response : Http.Response} :
    Serves s request response s' → response.status = 409 → Refuses response

namespace VersionedServer

variable {σ : Type} {server : VersionedServer σ} {others : σ → σ → Prop} {s s' s'' : σ}

/-- Requests are served one after the other, with steps of others in between. -/
inductive Served (server : VersionedServer σ) (others : σ → σ → Prop) :
    σ → List Exchange → σ → Prop
  | rest (s : σ) : Served server others s [] s
  | outside {s s' s'' : σ} {sent : List Exchange} (ho : others s s')
      (h : Served server others s' sent s'') : Served server others s sent s''
  | exchange {s s' s'' : σ} {request : Request} {response : Http.Response}
      {sent : List Exchange} (hs : server.Serves s request response s')
      (h : Served server others s' sent s'') :
      Served server others s (⟨request, some response⟩ :: sent) s''

theorem Served.of_nil (h : server.Served others s [] s'') :
    Relation.ReflTransGen others s s'' := by
  generalize hnil : ([] : List Exchange) = sent at h
  induction h with
  | rest => exact .refl
  | outside ho _ ih => exact .head ho (ih hnil)
  | exchange => cases hnil

/-- Others work on until the first request is served. -/
theorem Served.cons_iff {e : Exchange} {sent : List Exchange} :
    server.Served others s (e :: sent) s'' ↔
      ∃ before response after, Relation.ReflTransGen others s before ∧
        e.answer = some response ∧ server.Serves before e.question response after ∧
        server.Served others after sent s'' := by
  constructor
  · intro h
    generalize hall : e :: sent = all at h
    induction h with
    | rest => cases hall
    | outside ho _ ih =>
      obtain ⟨before, response, after, hbefore, hrest⟩ := ih hall
      exact ⟨before, response, after, .head ho hbefore, hrest⟩
    | exchange hs h =>
      cases hall
      exact ⟨_, _, _, .refl, rfl, hs, h⟩
  · rintro ⟨before, response, after, hbefore, he, hs, h⟩
    obtain ⟨request, answer⟩ := e
    cases he
    induction hbefore using Relation.ReflTransGen.head_induction_on with
    | refl => exact .exchange hs h
    | head ho _ ih => exact .outside ho ih

/-- Counts the writes to an object, and gives the count as its version. -/
def count (n : Nat) : Request → Http.Response × Nat
  | .read _ => (⟨200, []⟩, n)
  | .merge _ change =>
    match change.versionMember? with
    | some (.string v) => if v = toString n then (⟨200, []⟩, n + 1) else (⟨409, []⟩, n)
    | _ => (⟨200, []⟩, n + 1)

theorem count_conflict_iff (n : Nat) (target : Http.Target) (change : Json) :
    (count n (.merge target change)).1.status = 409 ↔
      ∃ v, change.versionMember? = some (.string v) ∧ some (toString n) ≠ some v := by
  simp only [count]
  split
  next v hv =>
    by_cases h : v = toString n
    · simp only [if_pos h]
      simp [hv, h]
    · simp only [if_neg h]
      simpa [hv] using Ne.symm h
  next hne =>
    constructor
    · intro h
      cases h
    · rintro ⟨v, hv, -⟩
      exact absurd hv (hne v)

theorem count_of_conflict {n : Nat} {request : Request} (h : (count n request).1.status = 409) :
    count n request = (⟨409, []⟩, n) := by
  cases request with
  | read target => cases h
  | merge target change =>
    simp only [count] at h ⊢
    split at h
    next v hv =>
      split at h
      next => cases h
      next hne => rw [if_neg hne]
    next => cases h

def counting : VersionedServer Nat where
  version _ n := some (toString n)
  Serves n request response n' := response = (count n request).1 ∧ n' = (count n request).2
  conflict_iff := by
    rintro n _ target change _ ⟨rfl, rfl⟩
    exact count_conflict_iff n target change
  unchanged := by
    rintro n _ request _ ⟨rfl, rfl⟩ hs
    rw [count_of_conflict hs]
  refuses := by
    rintro n _ request _ ⟨rfl, rfl⟩ hs
    rw [count_of_conflict hs]
    have hempty : Utf8.decode [] = .ok "" := by simp [Utf8.decode, Utf8.decodeFrom, Except.map]
    have hnone : Json.parse? "" = none := by decide +kernel
    exact ⟨rfl, "", hempty, by simp [hnone]⟩

def countAnswered :
    Program.Surroundings Request (fun _ => Option Http.Response) Nat
  | n, request => (some (count n request).1, (count n request).2)

theorem served_count (others : Nat → Nat → Prop) {α : Type}
    (p : Program Request (fun _ => Option Http.Response) α) (n : Nat) :
    counting.Served others n (p.run countAnswered n).events (p.run countAnswered n).state := by
  induction p generalizing n with
  | done => exact .rest n
  | ask request next ih => exact .exchange ⟨rfl, rfl⟩ (ih _ _)

end VersionedServer

end Api

namespace Store

open Api

variable {σ : Type} {op : Operation} {sent first later : List Exchange} {e : Exchange}
  {outcome : Except Failure Unit} {version : Option String}

/-- A patch of a chain that is based on an outdated version changes nothing, and is the last. -/
theorem Chain.stale (server : VersionedServer σ) (h : Chain version (e :: later) outcome)
    {response : Http.Response} {s s' : σ} (he : e.answer = some response)
    (hs : server.Serves s e.question response s') {v : String} (hv : version = some v)
    (hstale : server.version e.question.target s ≠ some v) :
    s' = s ∧ later = [] ∧ ∃ message, outcome = .error (.conflict message) := by
  obtain ⟨target, change, hq, hnamed⟩ := h.head_versionMember?
  rw [hq] at hs hstale
  subst hv
  have hconflict : response.status = 409 := (server.conflict_iff hs).mpr ⟨v, hnamed, hstale⟩
  exact ⟨server.unchanged hs hconflict, h.conflict_of_refuses he (server.refuses hs hconflict)⟩

/-- While an object stays outdated, an operation on it leaves all to the others. -/
theorem Chain.outdated (server : VersionedServer σ) {others : σ → σ → Prop} {s s'' : σ}
    (h : Chain version sent outcome) (hserved : server.Served others s sent s'') {v : String}
    (hv : version = some v)
    (hstale : ∀ s', Relation.ReflTransGen others s s' → ∀ e ∈ sent,
      server.version e.question.target s' ≠ some v) :
    Relation.ReflTransGen others s s'' ∧
      (sent ≠ [] → ∃ message, outcome = .error (.conflict message)) := by
  cases sent with
  | nil => exact ⟨hserved.of_nil, fun hne => absurd rfl hne⟩
  | cons e later =>
    obtain ⟨before, response, after, hbefore, he, hs, hrest⟩ :=
      VersionedServer.Served.cons_iff.mp hserved
    obtain ⟨rfl, rfl, hconflict⟩ :=
      h.stale server he hs hv (hstale before hbefore e List.mem_cons_self)
    exact ⟨hbefore.trans hrest.of_nil, fun _ => hconflict⟩

/-- Every patch to a request or a Certificate names the version it is based on. So one that is
based on an outdated version changes nothing and ends the operation with a conflict, and so does
the whole operation while its object stays outdated, whatever others do in between. The status of
an issuer is written without a version, and is never refused for one. -/
theorem versions_of_trace (server : VersionedServer σ)
    (h : Program.Trace op.talk.run sent outcome) :
    (op.isVersioned = true →
      (∀ first e later, sent = first ++ e :: later →
        (∃ target change, e.question = .merge target change ∧
          change.versionMember? = some ((basis op.version first).elim .null .string)) ∧
        ∀ s response s' v, e.answer = some response → server.Serves s e.question response s' →
          basis op.version first = some v → server.version e.question.target s ≠ some v →
          s' = s ∧ later = [] ∧ ∃ message, outcome = .error (.conflict message)) ∧
      ∀ (others : σ → σ → Prop) s s'' v, server.Served others s sent s'' → op.version = some v →
        (∀ s', Relation.ReflTransGen others s s' → ∀ e ∈ sent,
          server.version e.question.target s' ≠ some v) →
        Relation.ReflTransGen others s s'' ∧
          (sent ≠ [] → ∃ message, outcome = .error (.conflict message))) ∧
    (op.isVersioned = false → ∀ e ∈ sent,
      (∃ target change, e.question = .merge target change ∧ change.versionMember? = none) ∧
      ∀ s response s', server.Serves s e.question response s' → response.status ≠ 409) := by
  refine ⟨fun hv => ?_, fun hv => ?_⟩
  · have hchain := chain_of_trace h hv
    refine ⟨?_, fun others s s'' v hserved hversion hstale =>
      hchain.outdated server hserved hversion hstale⟩
    rintro first e later rfl
    exact ⟨hchain.drop.head_versionMember?, fun s response s' v he hs hbasis hstale =>
      hchain.drop.stale server he hs hbasis hstale⟩
  · cases op with
    | issuerStatus i =>
      intro e he
      obtain ⟨target, change, hq, hnone⟩ := unversioned_of_trace h e he
      refine ⟨⟨target, change, hq, hnone⟩, fun s response s' hs hstatus => ?_⟩
      -- A conflict would need a version in the patch.
      rw [hq] at hs
      obtain ⟨v, hv, -⟩ := (server.conflict_iff hs).mp hstatus
      simp [hnone] at hv
    | _ => cases hv

def sampleRequest : CertificateRequest where
  metadata := { name := some "web", ns := some "shop", resourceVersion := some "7" }
  spec := { request := "QQ==", issuerRef := ⟨"pki", none, some groupName⟩ }

/-- A finalizer is not added to a request that has changed since it was read. -/
theorem addFinalizer_of_outdated :
    let run := (Operation.addFinalizer sampleRequest).talk.run.run VersionedServer.countAnswered 8
    run.events.length = 1 ∧ run.state = 8 ∧ ∃ message, run.value = .error (.conflict message) := by
  intro run
  have hlength : run.events.length = 1 := by decide +kernel
  have hguards := (versions_of_trace VersionedServer.counting
    (Program.run_trace VersionedServer.countAnswered
      (Operation.addFinalizer sampleRequest).talk.run 8)).1 rfl
  have halone : ∀ n, Relation.ReflTransGen (fun _ _ : Nat => False) 8 n → n = 8 := by
    intro n h
    cases h with
    | refl => rfl
    | tail _ hfalse => exact hfalse.elim
  have hother : some (toString 8) ≠ some "7" := by decide
  obtain ⟨hstate, hconflict⟩ := hguards.2 (fun _ _ => False) 8 run.state "7"
    (VersionedServer.served_count _ _ 8) rfl (fun n h _ _ => halone n h ▸ hother)
  exact ⟨hlength, halone _ hstate, hconflict (List.ne_nil_of_length_eq_add_one hlength)⟩

def sampleVersioned : Issuer :=
  { Simulation.World.sampleIssuer with
    metadata := { name := some "pki", ns := some "shop", resourceVersion := some "7" } }

/-- The status of an issuer that has changed since it was read is overwritten. -/
theorem issuerStatus_of_outdated :
    let run := (Operation.issuerStatus sampleVersioned).talk.run.run
      VersionedServer.countAnswered 8
    (Operation.issuerStatus sampleVersioned).version = some "7" ∧
      run.events.map (fun e => (e.question.method, e.question.body?.bind Json.versionMember?)) =
        [(.patch, none)] ∧
      run.state = 9 := by
  decide +kernel

end Store

end CertBroker
