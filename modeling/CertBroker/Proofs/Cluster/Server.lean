import CertBroker.Proofs.Cluster.Write

namespace CertBroker

open Json

theorem Write.metadata_notMem_beside (w : Write) : "metadata" ∉ w.beside.map Prod.fst := by
  cases w <;> simp [Write.beside, member]

namespace Stored

/-- The metadata the server sets itself. -/
def serverKept : List String := ["resourceVersion", "generation", "managedFields"]

/-- The object after members were merged into it, whatever the server sets itself. -/
structure Merged (j change k : Stored) : Prop where
  beside : ∀ n, n ≠ "metadata" → member? n k = member? n (mergeMembers j change)
  noted : ∀ n, n ∉ serverKept →
    member? n k.metadata = member? n (metadata (mergeMembers j change))

/-- The object after a write, whatever the server sets itself. -/
abbrev Applied (j : Stored) (w : Write) (k : Stored) : Prop := j.Merged w.change k

variable {i j k : Stored} {w : Write} {r : CertificateRequest} {version : Option String}

theorem mergePatch_object (target : Json) (patch : List (String × Json)) :
    mergePatch target (.object patch) =
      .object (mergeMembers (target.members?.getD []) patch) := by
  rw [mergePatch]

/-- What is noted in the metadata is merged into it. -/
theorem metadata_mergeMembers (j : Stored) (version : Option String) (noted : Stored)
    {beside : Stored} (hb : "metadata" ∉ beside.map Prod.fst) :
    metadata (mergeMembers j (Store.metadataChange version noted ++ beside)) =
      mergeMembers j.metadata (("resourceVersion", version.elim .null .string) :: noted) := by
  have hmember : member? "metadata"
      (mergeMembers j (Store.metadataChange version noted ++ beside)) =
      some (.object (mergeMembers j.metadata
        (("resourceVersion", version.elim .null .string) :: noted))) := by
    rw [mergeMembers_append, member?_mergeMembers_of_notMem hb, Store.metadataChange, member,
      mergeMembers_cons, mergeMembers_nil, member?_mergeMember_self (by simp), mergePatch_object]
    cases hm : member? "metadata" j <;> simp [metadata, hm, members?]
  rw [metadata, hmember]
  rfl

/-- What is not noted in the metadata stays, unless the server sets it. -/
theorem Merged.member?_metadata {noted beside : Stored}
    (h : j.Merged (Store.metadataChange version noted ++ beside) k)
    (hb : "metadata" ∉ beside.map Prod.fst) {n : String} (hn : n ∉ serverKept)
    (hnoted : n ∉ noted.map Prod.fst) : member? n k.metadata = member? n j.metadata := by
  have hversion : n ≠ "resourceVersion" := fun he => hn (by simp [serverKept, he])
  rw [h.noted n hn, metadata_mergeMembers j version noted hb]
  apply member?_mergeMembers_of_notMem
  simp [hversion, hnoted]

/-- Annotations that are noted are merged into the former ones. -/
theorem Merged.member?_annotations {d : Dict String}
    (h : j.Merged (Store.metadataChange version (Store.annotationsChange (some d))) k) :
    member? "annotations" k.metadata = some (.object
      (mergeMembers (((member? "annotations" j.metadata).getD .null).members?.getD [])
        (d.entries.map fun e => (e.1, .string e.2)))) := by
  have hmerged := h.noted "annotations" (by simp [serverKept])
  rw [← List.append_nil (Store.metadataChange _ _), metadata_mergeMembers _ _ _ (by simp),
    Store.annotationsChange, member, mergeMembers_cons, mergeMembers_cons, mergeMembers_nil,
    Option.elim_some, member?_mergeMember_self (by simp [ofTexts, ofDict]), ofTexts, ofDict,
    mergePatch_object, member?_mergeMember_of_ne (by decide)] at hmerged
  exact hmerged

theorem Merged.member?_finalizers {finalizers : List String}
    (h : j.Merged (Store.metadataChange version (Store.finalizersChange finalizers)) k) :
    member? "finalizers" k.metadata = some (.array (finalizers.map .string)) := by
  have hmerged := h.noted "finalizers" (by simp [serverKept])
  rw [← List.append_nil (Store.metadataChange _ _), metadata_mergeMembers _ _ _ (by simp),
    Store.finalizersChange, member, mergeMembers_cons, mergeMembers_cons, mergeMembers_nil,
    member?_mergeMember_self (by simp), mergePatch] at hmerged
  · exact hmerged
  · simp

/-- A key that annotations are noted for has the noted text, another one keeps its own. -/
theorem Merged.annotation?_eq {d : Dict String}
    (h : j.Merged (Store.metadataChange version (Store.annotationsChange (some d))) k)
    (key : String) : k.annotation? key = (d.get? key).or (j.annotation? key) := by
  rw [Stored.annotation?, h.member?_annotations, Option.bind_some, get?,
    member?_texts _ d.ascending]
  have hwritten : Dict.find key d.entries = d.get? key := rfl
  have hheld : j.annotation? key = (member? key
      (((member? "annotations" j.metadata).getD .null).members?.getD [])).bind text? := by
    rw [Stored.annotation?]
    cases member? "annotations" j.metadata with
    | none => rfl
    | some v => cases v <;> rfl
  rw [hwritten, hheld]
  cases d.get? key <;> rfl

theorem Merged.annotation?_eq_none
    (h : j.Merged (Store.metadataChange version (Store.annotationsChange none)) k) (key : String) :
    k.annotation? key = none := by
  have hmerged := h.noted "annotations" (by simp [serverKept])
  rw [← List.append_nil (Store.metadataChange _ _), metadata_mergeMembers _ _ _ (by simp),
    Store.annotationsChange, member, mergeMembers_cons, mergeMembers_cons, mergeMembers_nil,
    Option.elim_none, member?_mergeMember_null] at hmerged
  rw [Stored.annotation?, hmerged]
  rfl

namespace Applied

/-- What a write does not note in the metadata stays, unless the server sets it. -/
theorem member?_metadata (h : j.Applied w k) {n : String} (hn : n ∉ serverKept)
    (hw : n ∉ w.noted.map Prod.fst) : member? n k.metadata = member? n j.metadata :=
  Merged.member?_metadata h w.metadata_notMem_beside hn hw

theorem annotation?_eq (h : j.Applied w k) (hw : "annotations" ∉ w.noted.map Prod.fst)
    (key : String) : k.annotation? key = j.annotation? key := by
  have hsame := h.member?_metadata (by simp [serverKept]) hw
  rw [Stored.annotation?, hsame, Stored.annotation?]

theorem merged_annotations (h : j.Applied (.annotations r) k) {d : Dict String}
    (hd : r.metadata.annotations = some d) :
    j.Merged (Store.metadataChange r.metadata.resourceVersion (Store.annotationsChange (some d)))
      k := by
  have hchange : (Write.annotations r).change = Store.metadataChange r.metadata.resourceVersion
      (Store.annotationsChange (some d)) := by
    rw [← hd]
    rfl
  exact hchange ▸ h

theorem annotation?_of_annotations (h : j.Applied (.annotations r) k) {key text : String}
    (ht : r.metadata.annotation? key = some text) : k.annotation? key = some text := by
  obtain ⟨d, hd, hget⟩ := Option.bind_eq_some_iff.mp ht
  rw [(h.merged_annotations hd).annotation?_eq, hget]
  rfl

theorem carries_iff (h : j.Applied w k) (hw : "annotations" ∉ w.noted.map Prod.fst)
    (key : String) : k.Carries key ↔ j.Carries key := by
  rw [Carries, h.annotation?_eq hw, Carries]

theorem carries_of_annotations (h : j.Applied (.annotations r) k) {key : String}
    (he : (r.metadata.entry? key).isSome = true) : k.Carries key := by
  obtain ⟨id, hid⟩ := Option.isSome_iff_exists.mp he
  obtain ⟨hread, hne⟩ := Option.filter_eq_some_iff.mp hid
  exact ⟨id, h.annotation?_of_annotations hread, by simpa using hne⟩

theorem merged_finalizers {present : Bool} (h : j.Applied (.finalizer r present) k) :
    j.Merged (Store.metadataChange r.metadata.resourceVersion
      (Store.finalizersChange (r.metadata.finalizersWith present))) k := by
  have hchange : (Write.finalizer r present).change = Store.metadataChange
      r.metadata.resourceVersion (Store.finalizersChange (r.metadata.finalizersWith present)) := rfl
  exact hchange ▸ h

theorem hasFinalizer_of_present (h : j.Applied (.finalizer r true) k) : k.HasFinalizer :=
  ⟨_, h.merged_finalizers.member?_finalizers, by simp [Metadata.finalizersWith]⟩

theorem status?_eq (h : j.Applied w k) (hw : w.beside = []) : k.status? = j.status? := by
  have hsame := h.beside "status" (by simp)
  rw [Write.change, hw, List.append_nil, Store.metadataChange, member,
    member?_mergeMembers_of_notMem (by simp)] at hsame
  exact hsame

theorem status?_eq_none (h : j.Applied (.status r version) k) (hs : r.status = none) :
    k.status? = none := by
  have hmerged := h.beside "status" (by simp)
  rw [Write.change, mergeMembers_append, Write.beside, hs, Option.elim_none, member,
    mergeMembers_cons, mergeMembers_nil, member?_mergeMember_null] at hmerged
  exact hmerged

theorem status?_of_status {s : RequestStatus}
    (h : j.Applied (.status r version) k) (hs : r.status = some s) :
    k.status? = some (mergePatch (j.status?.getD .null) s.toJson) := by
  have hmerged := h.beside "status" (by simp)
  rw [Write.change, mergeMembers_append, Write.beside, hs, Option.elim_some, member,
    mergeMembers_cons, mergeMembers_nil, member?_mergeMember_self (by simp [RequestStatus.toJson]),
    Store.metadataChange, member, member?_mergeMembers_of_notMem (by simp)] at hmerged
  exact hmerged

end Applied

/-- What the server can make of a write, and answer, for the object at an address. -/
inductive Answered (a : Api.Address) :
    Stored → Write → Except Failure CertificateRequest → Stored → Prop
  | applied {i j : Stored} {w : Write} {r : CertificateRequest} (ha : w.address = a)
      (h : i.Applied w j) (hr : j.Holds a r) : Answered a i w (.ok r) j
  /-- The write is done, but its answer does not arrive. -/
  | lost {i j : Stored} {w : Write} (ha : w.address = a) (h : i.Applied w j) (f : Failure) :
      Answered a i w (.error f) j
  | refused {i : Stored} {w : Write} (f : Failure) : Answered a i w (.error f) i
  | elsewhere {i : Stored} {w : Write} (ha : w.address ≠ a)
      (answer : Except Failure CertificateRequest) : Answered a i w answer i

/-- Writes that are sent one after the other are served, with steps of others in between. -/
inductive Served (a : Api.Address) (others : Stored → Stored → Prop) :
    Stored → List Sent → Stored → Prop
  | rest (i : Stored) : Served a others i [] i
  | outside {i j k : Stored} {sent : List Sent} (ho : others i j)
      (h : Served a others j sent k) : Served a others i sent k
  | write {i j k : Stored} {w : Write} {answer : Except Failure CertificateRequest}
      {sent : List Sent} (hw : Answered a i w answer j) (h : Served a others j sent k) :
      Served a others i (⟨w, answer⟩ :: sent) k

namespace Served

variable {a : Api.Address} {others : Stored → Stored → Prop} {P : Stored → Prop}
  {sent first second : List Sent}

/-- What others keep, and every write that is sent keeps, is kept. -/
theorem invariant (h : Served a others i sent k) (ho : ∀ i j, others i j → P i → P j)
    (hw : ∀ e ∈ sent, e.question.address = a → ∀ i j, Applied i e.question j → P i → P j)
    (hi : P i) : P k := by
  induction h with
  | rest => exact hi
  | outside hstep _ ih => exact ih hw (ho _ _ hstep hi)
  | write ha _ ih =>
    have hrest := ih fun e he => hw e (List.mem_cons_of_mem _ he)
    cases ha with
    | applied ha happ => exact hrest (hw _ List.mem_cons_self ha _ _ happ hi)
    | lost ha happ => exact hrest (hw _ List.mem_cons_self ha _ _ happ hi)
    | refused => exact hrest hi
    | elsewhere => exact hrest hi

theorem append_iff : Served a others i (first ++ second) k ↔
    ∃ j, Served a others i first j ∧ Served a others j second k := by
  constructor
  · intro h
    generalize hall : first ++ second = all at h
    induction h generalizing first with
    | rest i =>
      obtain ⟨rfl, rfl⟩ := List.append_eq_nil_iff.mp hall
      exact ⟨i, .rest i, .rest i⟩
    | outside ho _ ih =>
      obtain ⟨j, hfirst, hsecond⟩ := ih hall
      exact ⟨j, .outside ho hfirst, hsecond⟩
    | @write i _ _ w answer _ hw h ih =>
      cases first with
      | nil =>
        rw [List.nil_append] at hall
        exact ⟨i, .rest i, hall ▸ .write hw h⟩
      | cons e first =>
        obtain ⟨rfl, hrest⟩ := List.cons.inj hall
        obtain ⟨j, hfirst, hsecond⟩ := ih hrest
        exact ⟨j, .write hw hfirst, hsecond⟩
  · rintro ⟨j, hfirst, hsecond⟩
    induction hfirst with
    | rest => exact hsecond
    | outside ho _ ih => exact .outside ho (ih hsecond)
    | write hw _ ih => exact .write hw (ih hsecond)

theorem first_answered {e : Sent} (h : Served a others i (e :: sent) k) :
    ∃ before after, Served a others i [] before ∧ Answered a before e.question e.answer after ∧
      Served a others after sent k := by
  generalize hall : e :: sent = all at h
  induction h with
  | rest => exact absurd hall (by simp)
  | outside ho _ ih =>
    obtain ⟨before, after, hbefore, hafter⟩ := ih hall
    exact ⟨before, after, .outside ho hbefore, hafter⟩
  | write hw h =>
    cases hall
    exact ⟨_, _, .rest _, hw, h⟩

/-- A write that is answered well was applied on the way. -/
theorem applied_of_ok {w : Write} {r : CertificateRequest}
    (h : Served a others i (⟨w, .ok r⟩ :: sent) k) (ha : w.address = a) :
    ∃ before after, Served a others i [] before ∧ Applied before w after ∧ after.Holds a r ∧
      Served a others after sent k := by
  obtain ⟨before, after, hbefore, hanswered, hrest⟩ := h.first_answered
  cases hanswered with
  | applied _ happ hr => exact ⟨before, after, hbefore, happ, hr, hrest⟩
  | elsewhere hne => exact absurd ha hne

end Served

end Stored

end CertBroker
