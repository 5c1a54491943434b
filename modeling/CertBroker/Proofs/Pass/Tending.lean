import CertBroker.Proofs.Cluster.Holdings
import CertBroker.Proofs.Pass.Advance
import CertBroker.Proofs.Pass.Health
import CertBroker.Proofs.Pass.Outcome

namespace CertBroker

variable {fresh : Stamp → Prop}

/-- The same stamp, or one that the server has given meanwhile. -/
def Stamp.Renews (fresh : Stamp → Prop) (s s' : Stamp) : Prop := s' = s ∨ fresh s'

namespace Stamp.Renews

variable {s s' s'' old given new : Stamp}

theorem refl (s : Stamp) : s.Renews fresh s := .inl rfl

theorem trans (h : s.Renews fresh s') (h' : s'.Renews fresh s'') : s.Renews fresh s'' := by
  rcases h' with rfl | hfresh
  · exact h
  · exact .inr hfresh

theorem mixes (ho : s.Renews fresh old) (hg : s.Renews fresh given)
    (h : new = old ∨ new = given ∨ fresh new) : s.Renews fresh new := by
  rcases h with rfl | rfl | hfresh
  · exact ho
  · exact hg
  · exact .inr hfresh

end Stamp.Renews

namespace Metadata

variable {m m' m'' old given new : Metadata}

/-- The finalizers of others, in their order. -/
def foreignFinalizers (m : Metadata) : List String :=
  (m.finalizers.getD []).filter fun f => f ≠ finalizerName

/-- The same metadata but for the ids of the PKI, for our finalizer, and for a stamp that the server
has given meanwhile. -/
structure Tended (fresh : Stamp → Prop) (m m' : Metadata) : Prop where
  rest : ∃ annotations finalizers stamp, m' = { m.stamped stamp with annotations, finalizers }
  annotation? : ∀ key, key ≠ Annotation.requestId → key ≠ Annotation.certificateId →
    m'.annotation? key = m.annotation? key
  foreignFinalizers : m'.foreignFinalizers = m.foreignFinalizers
  stamp : m.stamp.Renews fresh m'.stamp

namespace Tended

theorem refl (m : Metadata) : m.Tended fresh m :=
  ⟨⟨_, _, m.stamp, rfl⟩, fun _ _ _ => rfl, rfl, .refl _⟩

theorem trans (h : m.Tended fresh m') (h' : m'.Tended fresh m'') : m.Tended fresh m'' := by
  refine ⟨?_, fun key hr hc => ?_, h'.foreignFinalizers.trans h.foreignFinalizers,
    h.stamp.trans h'.stamp⟩
  · obtain ⟨_, _, _, rfl⟩ := h.rest
    obtain ⟨annotations, finalizers, stamp, rfl⟩ := h'.rest
    exact ⟨annotations, finalizers, stamp, rfl⟩
  · exact (h'.annotation? key hr hc).trans (h.annotation? key hr hc)

theorem nsText (h : m.Tended fresh m') : m'.nsText = m.nsText := by
  obtain ⟨_, _, _, rfl⟩ := h.rest
  rfl

theorem key (h : m.Tended fresh m') : m'.key = m.key := by
  obtain ⟨_, _, _, rfl⟩ := h.rest
  rfl

theorem parentName? (h : m.Tended fresh m') : m'.parentName? = m.parentName? := by
  rw [Metadata.parentName?, Metadata.entry?, h.annotation? _ (by decide) (by decide)]
  rfl

theorem mixes (ho : m.Tended fresh old) (hg : m.Tended fresh given)
    (h : old.Mixes fresh given new) : m.Tended fresh new := by
  refine ⟨?_, fun key hr hc => ?_, ?_, ?_⟩
  · obtain ⟨_, _, _, rfl⟩ := ho.rest
    obtain ⟨_, _, _, rfl⟩ := hg.rest
    rcases h.rest with ⟨annotations, finalizers, stamp, rfl⟩ | ⟨annotations, finalizers, stamp, rfl⟩
    · exact ⟨annotations, finalizers, stamp, rfl⟩
    · exact ⟨annotations, finalizers, stamp, rfl⟩
  · exact eq_of_either (ho.annotation? key hr hc) (hg.annotation? key hr hc) (h.annotation? key)
  · rcases h.finalizers with hf | hf
    · rw [Metadata.foreignFinalizers, hf]
      exact ho.foreignFinalizers
    · rw [Metadata.foreignFinalizers, hf]
      exact hg.foreignFinalizers
  · exact ho.stamp.mixes hg.stamp h.stamp

end Tended

/-- The same metadata but for the id of the last certificate, and for a stamp that the server has
given meanwhile. -/
structure Linked (fresh : Stamp → Prop) (m m' : Metadata) : Prop where
  rest : ∃ annotations stamp, m' = { m.stamped stamp with annotations }
  annotation? : ∀ key, key ≠ Annotation.lastCertificateId → m'.annotation? key = m.annotation? key
  stamp : m.stamp.Renews fresh m'.stamp

namespace Linked

theorem refl (m : Metadata) : m.Linked fresh m := ⟨⟨_, m.stamp, rfl⟩, fun _ _ => rfl, .refl _⟩

theorem trans (h : m.Linked fresh m') (h' : m'.Linked fresh m'') : m.Linked fresh m'' := by
  refine ⟨?_, fun key hkey => (h'.annotation? key hkey).trans (h.annotation? key hkey),
    h.stamp.trans h'.stamp⟩
  obtain ⟨_, _, rfl⟩ := h.rest
  obtain ⟨annotations, stamp, rfl⟩ := h'.rest
  exact ⟨annotations, stamp, rfl⟩

theorem key (h : m.Linked fresh m') : m'.key = m.key := by
  obtain ⟨_, _, rfl⟩ := h.rest
  rfl

theorem mixes (ho : m.Linked fresh old) (hg : m.Linked fresh given)
    (h : old.Mixes fresh given new) : m.Linked fresh new := by
  refine ⟨?_, fun key hkey => ?_, ho.stamp.mixes hg.stamp h.stamp⟩
  · obtain ⟨_, _, rfl⟩ := ho.rest
    obtain ⟨_, _, rfl⟩ := hg.rest
    have hfinalizers : new.finalizers = m.finalizers := h.finalizers.elim id id
    rcases h.rest with ⟨annotations, finalizers, stamp, rfl⟩ | ⟨annotations, finalizers, stamp, rfl⟩
    · obtain rfl : finalizers = m.finalizers := hfinalizers
      exact ⟨annotations, stamp, rfl⟩
    · obtain rfl : finalizers = m.finalizers := hfinalizers
      exact ⟨annotations, stamp, rfl⟩
  · exact eq_of_either (ho.annotation? key hkey) (hg.annotation? key hkey) (h.annotation? key)

end Linked

theorem tended_annotate {key : String}
    (h : key = Annotation.requestId ∨ key = Annotation.certificateId) (m : Metadata)
    (value : String) : m.Tended fresh (m.annotate key value).1 := by
  obtain ⟨annotations, heq⟩ := annotate_eq m key value
  refine ⟨⟨annotations, m.finalizers, m.stamp, heq⟩, fun other hr hc => ?_, by rw [heq]; rfl,
    .inl (by rw [heq]; rfl)⟩
  rw [annotation?_annotate, if_neg]
  rcases h with rfl | rfl
  · exact hr.symm
  · exact hc.symm

theorem tended_recordRequestId (m : Metadata) (id : String) :
    m.Tended fresh (m.recordRequestId id).1 := by
  unfold recordRequestId
  split
  next => exact .refl m
  next => exact tended_annotate (.inl rfl) m id

theorem tended_recordCertificateId (m : Metadata) (id : String) :
    m.Tended fresh (m.recordCertificateId id).1 := by
  unfold recordCertificateId
  split
  next => exact .refl m
  next => exact tended_annotate (.inr rfl) m id

theorem tended_withFinalizer (m : Metadata) (present : Bool) :
    m.Tended fresh (m.withFinalizer present) := by
  refine ⟨⟨m.annotations, _, m.stamp, rfl⟩, fun _ _ _ => rfl, ?_, .refl _⟩
  cases present <;> simp [foreignFinalizers, withFinalizer, finalizersWith]

end Metadata

/-- Setting a condition leaves those of other types, in their order. -/
theorem Condition.filter_set (kept : String → Bool) {type : String} (h : kept type = false)
    (status : ConditionStatus) (reason message : String) (now : Time) (cs : List Condition) :
    (Condition.set type status reason message now cs).filter (fun c => kept c.type) =
      cs.filter (fun c => kept c.type) := by
  induction cs with
  | nil => simp [Condition.set, h]
  | cons c rest ih =>
    unfold Condition.set
    split
    next htype => simp [htype, h]
    next => simp [List.filter_cons, ih]

/-- The types of the conditions that passes set. -/
def ownConditions : List String :=
  [ConditionType.ready, ConditionType.approved, ConditionType.denied, ConditionType.invalidRequest]

namespace RequestStatus

variable {s : RequestStatus} {type reason message : String} {status : ConditionStatus}
  {now : Time}

/-- The conditions of other types, in their order. -/
def foreignConditions (s : RequestStatus) : List Condition :=
  s.conditions.filter fun c => !ownConditions.contains c.type

theorem foreignConditions_setCondition (h : ownConditions.contains type = true) :
    (s.setCondition type status reason message now).foreignConditions = s.foreignConditions := by
  have hforeign : (!ownConditions.contains type) = false := by rw [h]; rfl
  exact Condition.filter_set (fun type => !ownConditions.contains type) hforeign ..

theorem foreignConditions_applyFailure (s : RequestStatus) (f : Failure) (now : Time) :
    (s.applyFailure f now).foreignConditions = s.foreignConditions := by
  unfold applyFailure
  split
  next => exact foreignConditions_setCondition (by decide)
  next => exact foreignConditions_setCondition (by decide)

end RequestStatus

namespace CertificateRequest

variable {r q q' old given new after reflected : CertificateRequest} {issuer : Issuer}
  {settings : Settings} {events : List Event}

/-- The same request but for what passes set: the ids of the PKI, our finalizer, the conditions of
our types, and the certificate, the CA and the time of the failure. -/
structure Tended (fresh : Stamp → Prop) (r q : CertificateRequest) : Prop where
  metadata : r.metadata.Tended fresh q.metadata
  spec : q.spec = r.spec
  conditions : q.currentStatus.foreignConditions = r.currentStatus.foreignConditions

namespace Tended

theorem refl (r : CertificateRequest) : r.Tended fresh r := ⟨.refl _, rfl, rfl⟩

theorem trans (h : r.Tended fresh q) (h' : q.Tended fresh q') : r.Tended fresh q' :=
  ⟨h.metadata.trans h'.metadata, h'.spec.trans h.spec, h'.conditions.trans h.conditions⟩

theorem mixes (ho : r.Tended fresh old) (hg : r.Tended fresh given)
    (h : old.Mixes fresh given new) : r.Tended fresh new := by
  refine ⟨ho.metadata.mixes hg.metadata h.metadata, eq_of_either ho.spec hg.spec h.spec, ?_⟩
  rcases h.conditions with hc | hc
  · rw [RequestStatus.foreignConditions, hc]
    exact ho.conditions
  · rw [RequestStatus.foreignConditions, hc]
    exact hg.conditions

theorem of_metadata (h : r.Tended fresh q) {m : Metadata} (hm : q.metadata.Tended fresh m) :
    r.Tended fresh { q with metadata := m } :=
  ⟨h.metadata.trans hm, h.spec, h.conditions⟩

theorem of_status {f : RequestStatus → RequestStatus}
    (h : (f r.currentStatus).foreignConditions = r.currentStatus.foreignConditions) :
    r.Tended fresh (r.updateStatus f) :=
  ⟨.refl _, rfl, h⟩

end Tended

theorem tended_guard (r : CertificateRequest) (present : Bool) :
    r.Tended fresh (Simulation.World.guard r present) :=
  ⟨Metadata.tended_withFinalizer _ present, rfl, rfl⟩

theorem tended_accept (r : CertificateRequest) (c : Pki.IssuedCertificate) (now : Time) :
    r.Tended fresh (r.accept c now) := by
  refine Tended.of_metadata (Tended.of_status ?_) (Metadata.tended_recordCertificateId _ _)
  rw [RequestStatus.foreignConditions_setCondition (by decide)]
  exact RequestStatus.foreignConditions_setCondition (by decide)

theorem Becomes.tended (h : r.Becomes events q) : r.Tended fresh q := by
  cases h with
  | kept => exact .refl r
  | denied => exact .of_status (RequestStatus.foreignConditions_setCondition (by decide))
  | refused => exact .of_status (RequestStatus.foreignConditions_setCondition (by decide))
  | accepted => exact tended_accept r _ _
  | submitted =>
    refine ⟨Metadata.tended_recordRequestId _ _, rfl, ?_⟩
    exact RequestStatus.foreignConditions_setCondition (by decide)
  | invalid => exact .of_status (RequestStatus.foreignConditions_setCondition (by decide))

theorem Reflects.tended {outcome : Except Failure Action}
    (h : after.Reflects outcome events reflected) : after.Tended fresh reflected := by
  cases h with
  | kept => exact .refl after
  | failed f now => exact .of_status (RequestStatus.foreignConditions_applyFailure _ f now)

end CertificateRequest

namespace Certificate

variable {c d d' old given new : Certificate}

/-- The same Certificate but for the id of its last certificate. -/
structure Tended (fresh : Stamp → Prop) (c d : Certificate) : Prop where
  metadata : c.metadata.Linked fresh d.metadata
  spec : d.spec = c.spec
  status : d.status = c.status

namespace Tended

theorem refl (c : Certificate) : c.Tended fresh c := ⟨.refl _, rfl, rfl⟩

theorem trans (h : c.Tended fresh d) (h' : d.Tended fresh d') : c.Tended fresh d' :=
  ⟨h.metadata.trans h'.metadata, h'.spec.trans h.spec, h'.status.trans h.status⟩

theorem mixes (ho : c.Tended fresh old) (hg : c.Tended fresh given)
    (h : old.Mixes fresh given new) : c.Tended fresh new :=
  ⟨ho.metadata.mixes hg.metadata h.metadata, eq_of_either ho.spec hg.spec h.spec,
    eq_of_either ho.status hg.status h.status⟩

end Tended

theorem tended_linkedTo {id : String} (h : (c.metadata.linkLastCertificateId id).2 = true) :
    c.Tended fresh (CertificateRequest.linkedTo c id) := by
  have hlinked := Certificate.isLinked_linkedTo h
  obtain ⟨annotations, heq⟩ := hlinked.rest
  have hmetadata : (CertificateRequest.linkedTo c id).metadata =
      { c.metadata with annotations } := by rw [heq]
  refine ⟨⟨⟨annotations, c.metadata.stamp, hmetadata⟩, hlinked.others, .inl ?_⟩, ?_, ?_⟩
  · rw [hmetadata]
    rfl
  · rw [heq]
  · rw [heq]

end Certificate

namespace Issuer

variable {i j old given new : Issuer}

/-- The conditions of other types than Ready, in their order. -/
def foreignConditions (i : Issuer) : List IssuerCondition :=
  i.currentStatus.conditions.filter fun c => c.type ≠ ConditionType.ready

/-- The same issuer but for its Ready condition, and for a stamp that the server has given
meanwhile. -/
structure Tended (fresh : Stamp → Prop) (i j : Issuer) : Prop where
  rest : ∃ stamp status, j = { i with metadata := i.metadata.stamped stamp, status }
  conditions : j.foreignConditions = i.foreignConditions
  stamp : i.metadata.stamp.Renews fresh j.metadata.stamp

namespace Tended

theorem refl (i : Issuer) : i.Tended fresh i := ⟨⟨i.metadata.stamp, _, rfl⟩, rfl, .refl _⟩

theorem key (h : i.Tended fresh j) : j.key = i.key := by
  obtain ⟨_, _, rfl⟩ := h.rest
  rfl

theorem mixes (ho : i.Tended fresh old) (hg : i.Tended fresh given)
    (h : old.Mixes fresh given new) : i.Tended fresh new := by
  refine ⟨?_, ?_, ?_⟩
  · obtain ⟨_, _, rfl⟩ := ho.rest
    obtain ⟨_, _, rfl⟩ := hg.rest
    have hmetadata : ∃ stamp, new.metadata = i.metadata.stamped stamp := h.rest.elim id id
    obtain ⟨stamp, hmetadata⟩ := hmetadata
    obtain ⟨scope, metadata, spec, status⟩ := new
    obtain rfl : scope = i.scope := h.scope.elim id id
    obtain rfl : metadata = i.metadata.stamped stamp := hmetadata
    obtain rfl : spec = i.spec := h.spec.elim id id
    exact ⟨stamp, status, rfl⟩
  · rcases h.status with hs | hs
    · rw [foreignConditions, currentStatus, hs]
      exact ho.conditions
    · rw [foreignConditions, currentStatus, hs]
      exact hg.conditions
  · exact ho.stamp.mixes hg.stamp h.stamp

end Tended

theorem filter_setReady (status : ConditionStatus) (reason message : String) (now : Time)
    (cs : List IssuerCondition) :
    (IssuerStatus.setReady status reason message now cs).filter
        (fun c => c.type ≠ ConditionType.ready) =
      cs.filter (fun c => c.type ≠ ConditionType.ready) := by
  induction cs with
  | nil => simp [IssuerStatus.setReady]
  | cons c rest ih =>
    unfold IssuerStatus.setReady
    split
    next htype => simp [htype]
    next => rw [List.filter_cons, List.filter_cons, ih]

theorem tended_setReady (i : Issuer) (status : ConditionStatus) (reason message : String)
    (now : Time) : i.Tended fresh (i.setReady status reason message now) :=
  ⟨⟨i.metadata.stamp, _, rfl⟩, filter_setReady .., .refl _⟩

theorem tended_probed (i : Issuer) (outcome : Except Failure Unit) (now : Time) :
    i.Tended fresh (i.probed outcome now) := by
  cases outcome with
  | ok => exact tended_setReady ..
  | error => exact tended_setReady ..

end Issuer

end CertBroker
