import CertBroker.Cluster.Ledger
import CertBroker.Cluster.Store

namespace CertBroker.Metadata

variable {m : Metadata} {id : String}

theorem get?_annotations (m : Metadata) (key : String) :
    (m.annotations.getD .empty).get? key = m.annotation? key := by
  rw [annotation?]
  cases m.annotations <;> rfl

theorem annotation?_annotate (m : Metadata) (key value other : String) :
    (m.annotate key value).1.annotation? other =
      if key = other then some value else m.annotation? other := by
  unfold annotate
  simp only
  split
  next hsame =>
    have hread : ({ m with annotations := some (m.annotations.getD .empty) } : Metadata).annotation?
        other = m.annotation? other := get?_annotations m other
    rw [hread]
    split
    next hkey =>
      subst hkey
      rw [← hsame, get?_annotations]
    next => rfl
  next =>
    have hread : ({ m with annotations := some ((m.annotations.getD .empty).insert key value) } :
        Metadata).annotation? other = ((m.annotations.getD .empty).insert key value).get? other :=
      rfl
    rw [hread, Dict.get?_insert, get?_annotations]

theorem entry?_annotate_of_ne {key other : String} (h : key ≠ other) (m : Metadata)
    (value : String) : entry? (m.annotate key value).1 other = m.entry? other := by
  unfold entry?
  rw [annotation?_annotate, if_neg h]

theorem entry?_annotate_self {value : String} (h : value ≠ "") (m : Metadata) (key : String) :
    entry? (m.annotate key value).1 key = some value := by
  unfold entry?
  rw [annotation?_annotate, if_pos rfl]
  simp [h]

theorem ne_empty_of_entry? {key value : String} (h : m.entry? key = some value) : value ≠ "" := by
  obtain ⟨-, hvalue⟩ := Option.filter_eq_some_iff.mp h
  simpa using hvalue

theorem lastCertificateId?_of_linked (h : id ≠ "")
    (hl : (m.linkLastCertificateId id).2 = false) : m.lastCertificateId? = some id := by
  have hread : m.annotation? Annotation.lastCertificateId = some id := by
    rw [linkLastCertificateId, if_neg (by simpa using h), annotate] at hl
    split at hl
    next hsame => rw [← get?_annotations, hsame]
    next => cases hl
  rw [lastCertificateId?, entry?, hread]
  simp [h]

/-- An object that has the id as its last one is not linked to it again. -/
theorem linked_of_lastCertificateId? (h : m.lastCertificateId? = some id) :
    (m.linkLastCertificateId id).2 = false := by
  obtain ⟨hread, -⟩ := Option.filter_eq_some_iff.mp h
  unfold linkLastCertificateId
  split
  next => rfl
  next => rw [annotate, if_pos ((get?_annotations m _).trans hread)]

theorem requestId?_recordRequestId (h : id ≠ "") (hn : m.requestId? = none) :
    (m.recordRequestId id).1.requestId? = some id := by
  have hfree : (id.isEmpty || m.requestId?.isSome) = false := by simp [h, hn]
  rw [recordRequestId, hfree]
  exact entry?_annotate_self h m _

@[simp] theorem requestId?_recordCertificateId (m : Metadata) (id : String) :
    (m.recordCertificateId id).1.requestId? = m.requestId? := by
  unfold recordCertificateId
  split
  next => rfl
  next => exact entry?_annotate_of_ne (by decide) m id

@[simp] theorem certificateId?_recordRequestId (m : Metadata) (id : String) :
    (m.recordRequestId id).1.certificateId? = m.certificateId? := by
  unfold recordRequestId
  split
  next => rfl
  next => exact entry?_annotate_of_ne (by decide) m id

theorem annotate_eq (m : Metadata) (key value : String) :
    ∃ annotations, (m.annotate key value).1 = { m with annotations } := by
  unfold annotate
  simp only
  split
  next => exact ⟨_, rfl⟩
  next => exact ⟨_, rfl⟩

/-- Every annotation has a value still. -/
def KeepsKeys (m after : Metadata) : Prop :=
  ∀ key, (m.annotation? key).isSome = true → (after.annotation? key).isSome = true

theorem keepsKeys_annotate (m : Metadata) (key value : String) :
    m.KeepsKeys (m.annotate key value).1 := by
  intro other h
  rw [annotation?_annotate]
  split
  next => rfl
  next => exact h

theorem keepsKeys_recordRequestId (m : Metadata) (id : String) :
    m.KeepsKeys (m.recordRequestId id).1 := by
  unfold recordRequestId
  split
  next => exact fun _ h => h
  next => exact keepsKeys_annotate m _ id

theorem keepsKeys_recordCertificateId (m : Metadata) (id : String) :
    m.KeepsKeys (m.recordCertificateId id).1 := by
  unfold recordCertificateId
  split
  next => exact fun _ h => h
  next => exact keepsKeys_annotate m _ id

/-- The metadata stays, or its annotations change and then name the request of the PKI. -/
def Marks (m after : Metadata) : Prop :=
  after = m ∨ (∃ annotations, after = { m with annotations }) ∧ after.requestId?.isSome = true

theorem marks_recordRequestId (m : Metadata) (id : String) :
    m.Marks (m.recordRequestId id).1 := by
  by_cases hfree : (id.isEmpty || m.requestId?.isSome) = true
  · exact .inl (by rw [recordRequestId, if_pos hfree])
  · simp only [Bool.or_eq_true, not_or, Bool.not_eq_true, Option.isSome_eq_false_iff,
      Option.isNone_iff_eq_none] at hfree
    have hid : id ≠ "" := by simpa using hfree.1
    refine .inr ⟨?_, by simp [requestId?_recordRequestId hid hfree.2]⟩
    rw [recordRequestId, hfree.1, hfree.2]
    exact annotate_eq m _ id

theorem marks_recordCertificateId (h : m.requestId?.isSome = true) (id : String) :
    m.Marks (m.recordCertificateId id).1 := by
  refine .inr ⟨?_, by rw [requestId?_recordCertificateId, h]⟩
  unfold recordCertificateId
  split
  next => exact ⟨m.annotations, rfl⟩
  next => exact annotate_eq m _ id

theorem Marks.addressOf {after : Metadata} (h : m.Marks after) :
    after.nsText = m.nsText ∧ after.nameText = m.nameText := by
  rcases h with rfl | ⟨⟨annotations, rfl⟩, _⟩
  · exact ⟨rfl, rfl⟩
  · exact ⟨rfl, rfl⟩

theorem Marks.address {after : Metadata} (h : m.Marks after) (kind : Api.Kind) :
    Store.addressOf kind after = Store.addressOf kind m := by
  obtain ⟨hns, hname⟩ := h.addressOf
  rw [Store.addressOf, Store.addressOf, hns, hname]

theorem Marks.deletionTimestamp {after : Metadata} (h : m.Marks after) :
    after.deletionTimestamp = m.deletionTimestamp := by
  rcases h with rfl | ⟨⟨annotations, rfl⟩, _⟩
  · rfl
  · rfl

theorem Marks.hasFinalizer {after : Metadata} (h : m.Marks after) :
    after.hasFinalizer = m.hasFinalizer := by
  rcases h with rfl | ⟨⟨annotations, rfl⟩, _⟩
  · rfl
  · rfl

theorem Marks.requestId? {after : Metadata} (h : m.Marks after)
    (hne : m.annotations ≠ after.annotations) : after.requestId?.isSome = true := by
  rcases h with rfl | ⟨_, hid⟩
  · exact absurd rfl hne
  · exact hid

theorem Marks.isSome_annotations {after : Metadata} (h : m.Marks after)
    (hne : m.annotations ≠ after.annotations) : after.annotations.isSome = true := by
  have hid := h.requestId? hne
  cases hnone : after.annotations with
  | some => rfl
  | none =>
    rw [Metadata.requestId?, entry?, annotation?, hnone] at hid
    exact absurd hid (by simp)

end CertBroker.Metadata
