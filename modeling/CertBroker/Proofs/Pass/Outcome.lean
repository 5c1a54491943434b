import CertBroker.Pass.Outcome
import CertBroker.Proofs.Cluster.Ledger
import CertBroker.Proofs.Pass.Yield
import CertBroker.Simulation.World

namespace CertBroker

namespace CertificateRequest

/-- The parent Certificate with the id of a certificate as its last one. -/
def linkedTo (parent : Certificate) (id : String) : Certificate :=
  { parent with metadata := (parent.metadata.linkLastCertificateId id).1 }

end CertificateRequest

/-- One Certificate is another with a last certificate id. -/
structure Certificate.IsLinked (parent : Certificate) (id : String) (c : Certificate) : Prop where
  rest : ∃ annotations, c = { parent with metadata := { parent.metadata with annotations } }
  id : c.metadata.lastCertificateId? = some id
  others : ∀ key, key ≠ Annotation.lastCertificateId →
    c.metadata.annotation? key = parent.metadata.annotation? key

theorem Certificate.isLinked_linkedTo {parent : Certificate} {id : String}
    (h : (parent.metadata.linkLastCertificateId id).2 = true) :
    parent.IsLinked id (CertificateRequest.linkedTo parent id) := by
  have hid : id.isEmpty = false := by
    cases he : id.isEmpty with
    | false => rfl
    | true =>
      rw [Metadata.linkLastCertificateId, he] at h
      exact absurd h (by simp)
  have hmetadata : (CertificateRequest.linkedTo parent id).metadata =
      (parent.metadata.annotate Annotation.lastCertificateId id).1 := by
    rw [CertificateRequest.linkedTo, Metadata.linkLastCertificateId, hid]
    rfl
  refine ⟨?_, ?_, fun key hkey => ?_⟩
  · obtain ⟨annotations, ha⟩ := Metadata.annotate_eq parent.metadata Annotation.lastCertificateId id
    refine ⟨annotations, ?_⟩
    rw [← ha, ← hmetadata]
    rfl
  · rw [Metadata.lastCertificateId?, hmetadata]
    exact Metadata.entry?_annotate_self (by simpa using hid) _ _
  · rw [hmetadata, Metadata.annotation?_annotate, if_neg (Ne.symm hkey)]

theorem Certificate.IsLinked.key {parent c : Certificate} {id : String} (h : parent.IsLinked id c) :
    c.metadata.key = parent.metadata.key := by
  obtain ⟨annotations, rfl⟩ := h.rest
  rfl

namespace CertificateRequest

variable {r : CertificateRequest} {events : List Event}

/-- What can come of linking the parent. -/
inductive Links (r : CertificateRequest) : List Event → Except Failure Unit → Prop
  | nothing (h : r.metadata.certificateId? = none ∨ r.metadata.parentName? = none) :
      Links r [] (.ok ())
  | unread {id name : String} (hi : r.metadata.certificateId? = some id)
      (hn : r.metadata.parentName? = some name) (f : Failure) :
      Links r [⟨.readCertificate r.metadata.nsText name, .error f⟩] (.error f)
  | orphaned {id name : String} (hi : r.metadata.certificateId? = some id)
      (hn : r.metadata.parentName? = some name) :
      Links r [⟨.readCertificate r.metadata.nsText name, .ok none⟩] (.ok ())
  | linked {id name : String} {parent : Certificate} (hi : r.metadata.certificateId? = some id)
      (hn : r.metadata.parentName? = some name)
      (hl : (parent.metadata.linkLastCertificateId id).2 = false) :
      Links r [⟨.readCertificate r.metadata.nsText name, .ok (some parent)⟩] (.ok ())
  | written {id name : String} {parent : Certificate} (hi : r.metadata.certificateId? = some id)
      (hn : r.metadata.parentName? = some name)
      (hl : (parent.metadata.linkLastCertificateId id).2 = true) (outcome : Except Failure Unit) :
      Links r [⟨.readCertificate r.metadata.nsText name, .ok (some parent)⟩,
        ⟨.storeAnnotations (linkedTo parent id), outcome⟩] outcome

theorem links_of_yields {outcome : Except Failure Unit} (h : r.linkParent.Yields events outcome) :
    r.Links events outcome := by
  unfold linkParent at h
  split at h
  next id name hi hn =>
    simp only [Attempt.yields_bind, Attempt.yields_certificate] at h
    rcases h with ⟨f, rfl, rfl⟩ | ⟨found, _, rest, rfl, rfl, h⟩
    · exact .unread hi hn f
    cases found with
    | none =>
      obtain ⟨rfl, rfl⟩ := Attempt.yields_pure.mp h
      exact .orphaned hi hn
    | some parent =>
      simp only at h
      split at h
      next hl =>
        cases Attempt.yields_storeAnnotations.mp h
        exact .written hi hn hl outcome
      next hl =>
        obtain ⟨rfl, rfl⟩ := Attempt.yields_pure.mp h
        exact .linked hi hn (by simpa using hl)
  next hno =>
    obtain ⟨rfl, rfl⟩ := Attempt.yields_pure.mp h
    refine .nothing ?_
    cases hi : r.metadata.certificateId? with
    | none => exact .inl rfl
    | some id =>
      cases hn : r.metadata.parentName? with
      | none => exact .inr rfl
      | some name => exact absurd hn (hno id name hi)

theorem Links.quiet {outcome : Except Failure Unit} (h : r.Links events outcome) :
    Quiet events := by
  cases h <;> simp [Ask.disturbs, Ask.changesRequest, Ask.isCall]

/-- What the request is written as: with the failure of the pass, if it failed. -/
inductive Reflects (r : CertificateRequest) :
    Except Failure Action → List Event → CertificateRequest → Prop
  | kept (action : Action) : Reflects r (.ok action) [] r
  | failed (f : Failure) (now : Time) :
      Reflects r (.error f) [⟨.now, now⟩] (r.updateStatus fun s => s.applyFailure f now)

theorem reflects_of_trace {outcome : Except Failure Action} {reflected : CertificateRequest}
    (h : Program.Trace (r.reflect outcome) events reflected) :
    r.Reflects outcome events reflected := by
  cases outcome with
  | ok action =>
    obtain ⟨rfl, rfl⟩ := Program.trace_done_iff.mp h
    exact .kept action
  | error f =>
    simp only [reflect, Program.trace_bind_iff, Ask.trace_time_iff] at h
    obtain ⟨now, _, _, rfl, rfl, h⟩ := h
    obtain ⟨rfl, rfl⟩ := Program.trace_done_iff.mp h
    exact .failed f now

theorem Reflects.metadata {outcome : Except Failure Action} {reflected : CertificateRequest}
    (h : r.Reflects outcome events reflected) : reflected.metadata = r.metadata := by
  cases h <;> rfl

theorem Reflects.quiet {outcome : Except Failure Action} {reflected : CertificateRequest}
    (h : r.Reflects outcome events reflected) : Quiet events := by
  cases h <;> simp [Ask.disturbs, Ask.changesRequest, Ask.isCall]

theorem Reflects.unwritten {outcome : Except Failure Action} {reflected : CertificateRequest}
    (h : r.Reflects outcome events reflected) : Unwritten events := by
  cases h <;> simp [Ask.isWrite]

end CertificateRequest

theorem ok_of_joinOutcome {outcome : Except Failure Action} {stored linked : Except Failure Unit}
    {action : Action} (h : joinOutcome outcome (failuresOf stored linked) = .ok action) :
    outcome = .ok action ∧ stored = .ok () ∧ linked = .ok () := by
  cases outcome with
  | error => cases h
  | ok =>
    cases stored with
    | error => cases h
    | ok =>
      cases linked with
      | error => cases h
      | ok => exact ⟨h, rfl, rfl⟩

/-- The events of writing an outcome: what is noted, the write of the request, and the link. -/
theorem persistOutcome_yields {before after : CertificateRequest}
    {outcome result : Except Failure Action} {events : List Event}
    (h : (persistOutcome before after outcome).Yields events result) :
    ∃ noted reflected stored linking linked,
      events = noted ++ ⟨.storeRequest before reflected, stored⟩ :: linking ∧
      after.Reflects outcome noted reflected ∧ reflected.Links linking linked ∧
      result = joinOutcome outcome (failuresOf stored linked) := by
  simp only [persistOutcome, Attempt.yields_bind, Attempt.yields_lift] at h
  rcases h with ⟨f, ⟨_, _, hf⟩, _⟩ | ⟨reflected, noted, _, rfl, ⟨_, hr, hok⟩, h⟩
  · exact absurd hf (by simp)
  cases hok
  rcases h with ⟨f, ⟨_, _, hf⟩, _⟩ | ⟨stored, _, _, rfl, ⟨_, hs, hok⟩, h⟩
  · exact absurd hf (by simp)
  cases hok
  cases Ask.trace_put_iff.mp hs
  rcases h with ⟨f, ⟨_, _, hf⟩, _⟩ | ⟨linked, linking, _, rfl, ⟨_, hl, hok⟩, h⟩
  · exact absurd hf (by simp)
  cases hok
  obtain ⟨rfl, rfl⟩ := Attempt.yields_ofExcept.mp h
  exact ⟨noted, reflected, stored, linking, linked, by simp,
    CertificateRequest.reflects_of_trace hr, CertificateRequest.links_of_yields hl, rfl⟩

end CertBroker
