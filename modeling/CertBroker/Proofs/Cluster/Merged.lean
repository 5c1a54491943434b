import CertBroker.Proofs.Cluster.Holdings
import CertBroker.Proofs.Cluster.Version
import CertBroker.Proofs.Cluster.Wire

namespace CertBroker

open Json Stored

variable {i j k change : Stored} {version : Option String}

theorem either_trans {α : Type} {old mid given new : α} (h : mid = old ∨ mid = given)
    (h' : new = mid ∨ new = given) : new = old ∨ new = given := by
  rcases h' with rfl | hgiven
  · exact h
  · exact .inr hgiven

namespace Metadata

variable {old given new : Metadata}

theorem Fields.eq_of_same {ms ms' : Stored} (ho : Fields ms old) (hn : Fields ms' new)
    (hs : ∀ n, n ∉ "annotations" :: "finalizers" :: serverKept → member? n ms' = member? n ms) :
    new = { old.stamped new.stamp with
      annotations := new.annotations, finalizers := new.finalizers } := by
  have hcreation := eq_of_member?_eq (hs _ (by decide)) ho.creationTimestamp hn.creationTimestamp
  have hgrace := eq_of_member?_eq (hs _ (by decide)) ho.deletionGracePeriodSeconds
    hn.deletionGracePeriodSeconds
  have hdeletion := eq_of_member?_eq (hs _ (by decide)) ho.deletionTimestamp hn.deletionTimestamp
  have hgenerate := eq_of_member?_eq (hs _ (by decide)) ho.generateName hn.generateName
  have hlabels := eq_of_member?_eq (hs _ (by decide)) ho.labels hn.labels
  have hname := eq_of_member?_eq (hs _ (by decide)) ho.name hn.name
  have hns := eq_of_member?_eq (hs _ (by decide)) ho.ns hn.ns
  have howners := eq_of_member?_eq (hs _ (by decide)) ho.ownerReferences hn.ownerReferences
  have hlink := eq_of_member?_eq (hs _ (by decide)) ho.selfLink hn.selfLink
  have huid := eq_of_member?_eq (hs _ (by decide)) ho.uid hn.uid
  cases old
  cases new
  simp_all [stamped, stamp]

/-- Nothing but the stamp of a metadata is changed. -/
theorem Fields.eq_stamped {ms ms' : Stored} (ho : Fields ms old) (hn : Fields ms' new)
    (hs : ∀ n, n ∉ serverKept → member? n ms' = member? n ms) : new = old.stamped new.stamp := by
  have hannotations := eq_of_member?_eq (hs _ (by decide)) ho.annotations hn.annotations
  have hfinalizers := eq_of_member?_eq (hs _ (by decide)) ho.finalizers hn.finalizers
  have hrest := ho.eq_of_same hn fun n hkept =>
    hs n fun hmem => hkept (List.mem_cons_of_mem _ (List.mem_cons_of_mem _ hmem))
  rw [hannotations, hfinalizers] at hrest
  exact hrest

namespace Mixes

variable {fresh : Stamp → Prop} {mid : Metadata}

theorem kept (old given : Metadata) : old.Mixes fresh given old :=
  ⟨.inl ⟨old.annotations, old.finalizers, old.stamp, rfl⟩, fun _ => .inl rfl, .inl rfl, .inl rfl⟩

theorem trans (h : old.Mixes fresh given mid) (h' : mid.Mixes fresh given new) :
    old.Mixes fresh given new := by
  refine ⟨?_, fun key => either_trans (h.annotation? key) (h'.annotation? key),
    either_trans h.finalizers h'.finalizers, ?_⟩
  · rcases h'.rest with ⟨annotations, finalizers, stamp, rfl⟩ | hgiven
    · rcases h.rest with ⟨_, _, _, rfl⟩ | ⟨_, _, _, rfl⟩
      · exact .inl ⟨annotations, finalizers, stamp, rfl⟩
      · exact .inr ⟨annotations, finalizers, stamp, rfl⟩
    · exact .inr hgiven
  · rcases h'.stamp with hmid | hgiven
    · rw [hmid]
      exact h.stamp
    · exact .inr hgiven

end Mixes

variable {noted : Stored}

/-- A server that gives whatever stamps it likes leaves a mixture, if nothing else is noted than
annotations and finalizers, and these are left as a mixture. -/
theorem mixes_of_fields (ho : Fields i.metadata old) (hn : Fields k.metadata new)
    (hs : ∀ n, n ∉ "annotations" :: "finalizers" :: serverKept →
      member? n k.metadata = member? n i.metadata)
    (ha : ∀ key, new.annotation? key = old.annotation? key ∨
      new.annotation? key = given.annotation? key)
    (hf : new.finalizers = old.finalizers ∨ new.finalizers = given.finalizers) :
    old.Mixes (fun _ => True) given new :=
  ⟨.inl ⟨_, _, _, ho.eq_of_same hn hs⟩, ha, hf, .inr (.inr trivial)⟩

theorem mixes_of_unnoted (ho : Fields i.metadata old) (hn : Fields k.metadata new)
    (hs : ∀ n, n ∉ serverKept → member? n k.metadata = member? n i.metadata) :
    old.Mixes (fun _ => True) given new := by
  have heq := ho.eq_stamped hn hs
  refine ⟨.inl ⟨old.annotations, old.finalizers, new.stamp, heq⟩, fun key => .inl ?_, .inl ?_,
    .inr (.inr trivial)⟩
  · rw [heq]
    rfl
  · rw [heq]
    rfl

theorem mixes_of_annotations (ho : Fields i.metadata old) (hn : Fields k.metadata new)
    (h : i.Merged (Store.metadataChange version (Store.annotationsChange given.annotations)) k) :
    old.Mixes (fun _ => True) given new := by
  have hrest {n : String} (hkept : n ∉ serverKept) (hname : n ≠ "annotations") :
      member? n k.metadata = member? n i.metadata := by
    rw [← List.append_nil (Store.metadataChange _ _)] at h
    exact h.member?_metadata (by simp) hkept (by simp [Store.annotationsChange, member, hname])
  refine mixes_of_fields ho hn (fun n hkept => ?_) (fun key => ?_) (.inl ?_)
  · simp only [List.mem_cons, not_or] at hkept
    exact hrest hkept.2.2 hkept.1
  · cases hd : given.annotations with
    | none =>
      rw [hd] at h
      right
      rw [annotation?_of_fields hn, h.annotation?_eq_none, Metadata.annotation?, hd]
      rfl
    | some d =>
      rw [hd] at h
      rw [annotation?_of_fields hn, annotation?_of_fields ho, h.annotation?_eq,
        Metadata.annotation?, hd, Option.bind_some]
      cases d.get? key with
      | none => exact .inl rfl
      | some text => exact .inr rfl
  · exact eq_of_member?_eq (hrest (by decide) (by decide)) ho.finalizers hn.finalizers

theorem mixes_of_finalizers {finalizers : List String} (ho : Fields i.metadata old)
    (hn : Fields k.metadata new) (hg : given.finalizers = some finalizers)
    (h : i.Merged (Store.metadataChange version (Store.finalizersChange finalizers)) k) :
    old.Mixes (fun _ => True) given new := by
  have hrest {n : String} (hkept : n ∉ serverKept) (hname : n ≠ "finalizers") :
      member? n k.metadata = member? n i.metadata := by
    rw [← List.append_nil (Store.metadataChange _ _)] at h
    exact h.member?_metadata (by simp) hkept (by simp [Store.finalizersChange, member, hname])
  refine mixes_of_fields ho hn (fun n hkept => ?_) (fun key => .inl ?_) (.inr ?_)
  · simp only [List.mem_cons, not_or] at hkept
    exact hrest hkept.2.2 hkept.2.1
  · have hsame := eq_of_member?_eq (hrest (by decide) (by decide)) ho.annotations hn.annotations
    rw [Metadata.annotation?, hsame, Metadata.annotation?]
  · have hread := hn.finalizers
    rw [looseSlot, h.member?_finalizers] at hread
    have hitems := (Legible.items fun (f : String) (_ : f ∈ finalizers) => Legible.text 0 f).read
    have hnew := (congrArg (Option.map some) hitems).symm.trans hread
    rw [hg, ← Option.some.inj hnew]

end Metadata

namespace Stored

theorem Merged.member?_eq (h : i.Merged change k) {n : String} (hn : n ≠ "metadata")
    (hc : n ∉ change.map Prod.fst) : member? n k = member? n i := by
  rw [h.beside n hn, member?_mergeMembers_of_notMem hc]

theorem Merged.member?_metadata_of_notMem (h : i.Merged change k) {n : String}
    (hn : n ∉ serverKept) (hc : "metadata" ∉ change.map Prod.fst) :
    member? n k.metadata = member? n i.metadata := by
  rw [h.noted n hn, metadata, member?_mergeMembers_of_notMem hc, ← metadata]

theorem Merged.status?_eq {status : Json} (h : i.Merged (member "status" status) k)
    (hs : status ≠ .null) : k.status? = some (mergePatch (i.status?.getD .null) status) := by
  have hmerged := h.beside "status" (by decide)
  rw [member, mergeMembers_cons, mergeMembers_nil, member?_mergeMember_self hs] at hmerged
  exact hmerged

/-- What the server makes of an object by the exchanges with it: each patch is merged, or is not. -/
inductive Patched : Stored → List Api.Exchange → Stored → Prop
  | rest (i : Stored) : Patched i [] i
  | left {i k : Stored} {e : Api.Exchange} {later : List Api.Exchange}
      (h : Patched i later k) : Patched i (e :: later) k
  | merged {i j k change : Stored} {target : Http.Target} {answer : Option Http.Response}
      {later : List Api.Exchange} (hm : i.Merged change j) (h : Patched j later k) :
      Patched i (⟨.merge target (.object change), answer⟩ :: later) k

theorem Patched.of_write {α : Type} {read : Json → Option α} {a : Api.Address} {part : String}
    {sent : List Api.Exchange} {outcome : Except Failure Unit}
    (ht : Program.Trace (Store.write read a part (.object change) >>= fun _ => pure ()).run sent
      outcome) (h : i.Patched sent k) : k = i ∨ i.Merged change k := by
  rcases Store.trace_write_unit ht with rfl | ⟨target, answer, rfl⟩
  · cases h
    exact .inl rfl
  · cases h with
    | left h =>
      cases h
      exact .inl rfl
    | merged hm h =>
      cases h
      exact .inr hm

end Stored

namespace CertificateRequest

variable {a : Api.Address} {old mid given new : CertificateRequest} {fresh : Stamp → Prop}

theorem Mixes.kept (old given : CertificateRequest) : old.Mixes fresh given old :=
  ⟨.kept _ _, .inl rfl, .inl rfl⟩

theorem Mixes.trans (h : old.Mixes fresh given mid) (h' : mid.Mixes fresh given new) :
    old.Mixes fresh given new :=
  ⟨h.metadata.trans h'.metadata, either_trans h.spec h'.spec,
    either_trans h.conditions h'.conditions⟩

end CertificateRequest

/-- The request that a question is to leave, if it changes one. -/
def Ask.given? : Ask → Option CertificateRequest
  | .storeRequest _ after => some after
  | .addFinalizer r => some (Simulation.World.guard r true)
  | .removeFinalizer r => some (Simulation.World.guard r false)
  | _ => none

/-- The request that a write is to leave. -/
def Write.given : Write → CertificateRequest
  | .annotations r => r
  | .status r _ => r
  | .finalizer r present => Simulation.World.guard r present

namespace Stored

variable {a : Api.Address} {w : Write} {r old given new : CertificateRequest}

theorem Holds.unique (h : j.Holds a old) (h' : j.Holds a new) : new = old :=
  Option.some.inj (h'.read.symm.trans h.read)

theorem Holds.spec_eq (ho : i.Holds a old) (hn : k.Holds a new)
    (h : member? "spec" k = member? "spec" i) : new.spec = old.spec := by
  have hspec := (parts_of_read hn.read).2.1
  rw [h, (parts_of_read ho.read).2.1] at hspec
  exact (Option.some.inj hspec).symm

namespace Applied

theorem conditions_of_status (h : i.Applied (.status r version) k) (ho : i.Holds a old)
    (hn : k.Holds a new) (ht : r.currentStatus.Timely) :
    new.currentStatus.conditions = old.currentStatus.conditions ∨
      new.currentStatus.conditions = r.currentStatus.conditions := by
  cases hs : r.status with
  | none =>
    have hread := hn.status
    rw [h.status?_eq_none hs] at hread
    have hnone : new.status = none := (Option.some.inj hread).symm
    exact .inr (by simp only [CertificateRequest.currentStatus, hnone, hs])
  | some s =>
    have hcurrent : r.currentStatus = s := by rw [CertificateRequest.currentStatus, hs]; rfl
    rw [hcurrent] at ht ⊢
    obtain ⟨o, -, hor, hover⟩ := h.exists_laidOver ho hn hs ht
    rw [hover, RequestStatus.laidOver]
    split
    next hempty =>
      rcases hor with rfl | rfl
      · exact .inr hempty.symm
      · exact .inl rfl
    next => exact .inr rfl

/-- What a write leaves is a mixture. -/
theorem mixes (h : i.Applied w k) (ho : i.Holds a old) (hn : k.Holds a new)
    (ht : w.given.currentStatus.Timely) : old.Mixes (fun _ => True) w.given new := by
  have hspec : new.spec = old.spec ∨ new.spec = w.given.spec := by
    refine .inl (ho.spec_eq hn (Merged.member?_eq h (by decide) ?_))
    cases w <;> simp [Write.change, Write.beside, Store.metadataChange, member]
  cases w with
  | annotations r =>
    refine ⟨?_, hspec, .inl ?_⟩
    · exact Metadata.mixes_of_annotations ho.metadata hn.metadata h
    · rw [ho.currentStatus_of_status hn (h.status?_eq rfl)]
  | status r version =>
    refine ⟨?_, hspec, h.conditions_of_status ho hn ht⟩
    exact Metadata.mixes_of_unnoted ho.metadata hn.metadata fun n hkept =>
      h.member?_metadata hkept (by simp [Write.noted])
  | finalizer r present =>
    refine ⟨?_, hspec, .inl ?_⟩
    · exact Metadata.mixes_of_finalizers ho.metadata hn.metadata rfl h.merged_finalizers
    · rw [ho.currentStatus_of_status hn (h.status?_eq rfl)]

end Applied

theorem Answered.mixes {answer : Except Failure CertificateRequest}
    (h : Answered a i w answer k) (ho : i.Holds a old) (hn : k.Holds a new)
    (ht : w.given.currentStatus.Timely) : old.Mixes (fun _ => True) w.given new := by
  cases h with
  | applied _ happ => exact happ.mixes ho hn ht
  | lost _ happ => exact happ.mixes ho hn ht
  | refused =>
    rw [ho.unique hn]
    exact .kept old w.given
  | elsewhere =>
    rw [ho.unique hn]
    exact .kept old w.given

/-- Without steps of others nothing changes between the writes. -/
theorem Served.eq_of_nil (h : Served a (fun _ _ => False) i [] k) : k = i := by
  cases h with
  | rest => rfl
  | outside ho => exact ho.elim

theorem Served.answered {e : Sent} {sent : List Sent}
    (h : Served a (fun _ _ => False) i (e :: sent) k) :
    ∃ j, Answered a i e.question e.answer j ∧ Served a (fun _ _ => False) j sent k := by
  obtain ⟨before, after, hbefore, hanswered, hlater⟩ := h.first_answered
  rw [hbefore.eq_of_nil] at hanswered
  exact ⟨after, hanswered, hlater⟩

theorem Served.answered_of_single {e : Sent} (h : Served a (fun _ _ => False) i [e] k) :
    Answered a i e.question e.answer k := by
  obtain ⟨j, hanswered, hlater⟩ := h.answered
  rw [hlater.eq_of_nil]
  exact hanswered

/-- What storing a request leaves is a mixture, however much of it is done. -/
theorem Served.mixes_of_stores {before after : CertificateRequest} {sent : List Sent}
    {outcome : Except Failure Unit} (hstores : Stores before after sent outcome)
    (h : Served a (fun _ _ => False) i sent k)
    (ha : Store.addressOf Store.requestKind after.metadata = a) (ho : i.Holds a old)
    (hn : k.Holds a new) (ht : after.currentStatus.Timely) :
    old.Mixes (fun _ => True) after new := by
  cases hstores with
  | nothing =>
    rw [h.eq_of_nil] at hn
    rw [ho.unique hn]
    exact .kept old after
  | status => exact h.answered_of_single.mixes ho hn ht
  | failed => exact h.answered_of_single.mixes ho hn ht
  | annotations => exact h.answered_of_single.mixes ho hn ht
  | both ha' hs written answer =>
    obtain ⟨j, hanswered, hlater⟩ := h.answered
    have hj : j.Holds a written := by
      cases hanswered with
      | applied _ _ hr => exact hr
      | elsewhere hne => exact absurd ha hne
    exact (hanswered.mixes ho hj ht).trans (hlater.answered_of_single.mixes hj hn ht)

end Stored

namespace IssuerStatus

theorem conditions_of_read {ms : Stored} {s : IssuerStatus} (h : ofJson? (.object ms) = some s) :
    defaulted [] (items? IssuerCondition.ofJson?) (member? "conditions" ms) =
      some s.conditions := by
  obtain ⟨fields, hfields, hrest⟩ := bind_eq_some h
  simp only [record?, List.mapM_cons, List.mapM_nil] at hfields
  obtain ⟨conditions, hconditions, hnil⟩ := bind_eq_some hfields
  cases hnil
  obtain ⟨cs, hcs, hrest⟩ := bind_eq_some hrest
  cases hrest
  rw [member?_of_slot? hconditions]
  exact hcs

/-- A status with conditions that is merged and read back is the one that was written. -/
theorem eq_of_merged {held : Json} {s t : IssuerStatus} (hs : s.Timely) (hne : s.conditions ≠ [])
    (h : ofJson? (mergePatch held s.toJson) = some t) : t = s := by
  have hwrite : s.toJson = .object [("conditions",
      .array (s.conditions.map IssuerCondition.toJson))] := by
    simp [toJson, memberList, hne]
  rw [hwrite, mergePatch_object, mergeMembers_cons, mergeMembers_nil] at h
  have hread := conditions_of_read h
  rw [member?_mergeMember_self (by simp), mergePatch] at hread
  · have hitems := (Legible.items fun c hc => IssuerCondition.legible 0 (hs c hc)).read
    cases t
    exact congrArg mk (Option.some.inj (hread.symm.trans hitems))
  · simp

/-- A status that is merged leaves the former one, or itself. -/
theorem eq_or_eq_of_merged {held : Option Json} {s : IssuerStatus} {old new : Option IssuerStatus}
    (hs : s.Timely) (ho : Json.optional ofJson? held = some old)
    (hn : Json.optional ofJson? (some (mergePatch (held.getD .null) s.toJson)) = some new) :
    new = old ∨ new = some s := by
  by_cases hne : s.conditions = []
  · have hempty : s.toJson = .object [] := by simp [toJson, memberList, hne]
    have hread : Json.optional ofJson? (some (.object [])) = some (some s) := by
      obtain ⟨_⟩ := s
      cases hne
      rfl
    rw [hempty, mergePatch_object, mergeMembers_nil] at hn
    cases held with
    | none => exact .inr (Option.some.inj (hn.symm.trans hread))
    | some v =>
      cases v with
      | object ms => exact .inl (Option.some.inj (hn.symm.trans ho))
      | _ => exact .inr (Option.some.inj (hn.symm.trans hread))
  · rw [toJson, mergePatch_object] at hn
    obtain ⟨t, ht, rfl⟩ := Option.map_eq_some_iff.mp hn
    rw [← mergePatch_object] at ht
    exact .inr (congrArg some (eq_of_merged hs hne ht))

end IssuerStatus

namespace Holdings

variable {w : Holdings} {e : Event} {c : Certificate} {issuer : Issuer} {s : IssuerStatus}

/-- What the API server makes of the patches for an event that changes a request: whatever becomes
of each of them, the store it keeps serves the event. -/
theorem serves_of_served {given old new : CertificateRequest} {sent : List Sent}
    {p : Program Write (fun _ => Except Failure CertificateRequest) e.question.Answer}
    (hp : e.question.writes? = some p) (ht : Program.Trace p sent e.answer)
    (hg : e.question.given? = some given)
    (hs : Served (Store.addressOf Store.requestKind given.metadata) (fun _ _ => False) i sent k)
    (ho : i.Holds (Store.addressOf Store.requestKind given.metadata) old)
    (hn : k.Holds (Store.addressOf Store.requestKind given.metadata) new)
    (htimely : given.currentStatus.Timely)
    (hw : w.requests given.metadata.key = some old) :
    w.Serves (fun _ => True) e (w.setRequest given.metadata.key (some new)) := by
  cases dispatched_of_trace hp ht with
  | stored hstores =>
    cases hg
    exact .stored (.mixed hw (hs.mixes_of_stores hstores rfl ho hn htimely)) _
  | added r answer =>
    cases hg
    have hanswered := hs.answered_of_single
    have hmixes := hanswered.mixes ho hn htimely
    cases answer with
    | error f => exact .unguarded (r := r) (.mixed hw hmixes) f
    | ok q =>
      cases hanswered with
      | applied _ _ hq =>
        rw [hn.unique hq]
        exact .guarded (r := r) (.mixed hw hmixes)
      | elsewhere hne => exact absurd rfl hne
  | removed r answer =>
    cases hg
    exact .released (r := r) (.mixed hw (hs.answered_of_single.mixes ho hn htimely)) _

/-- The same for the annotations of a Certificate. -/
theorem serves_storeAnnotations {old new : Certificate} {sent : List Api.Exchange}
    {outcome : Except Failure Unit}
    (ht : Program.Trace (Store.storeAnnotations c).run sent outcome) (hs : i.Patched sent k)
    (ho : Certificate.ofJson? (.object i) = some old)
    (hn : Certificate.ofJson? (.object k) = some new)
    (hw : w.certificates c.metadata.key = some old) :
    w.Serves (fun _ => True) ⟨.storeAnnotations c, outcome⟩
      (w.setCertificate c.metadata.key (some new)) := by
  refine .annotated (.mixed hw ?_) outcome
  rcases hs.of_write ht with rfl | hmerged
  · cases ho.symm.trans hn
    exact ⟨.kept _ _, .inl rfl, .inl rfl⟩
  · obtain ⟨⟨m, spec, status⟩, hold, hread⟩ := bind_eq_some ho
    cases hread
    obtain ⟨⟨m', spec', status'⟩, hnew, hread⟩ := bind_eq_some hn
    cases hread
    obtain ⟨hm, hspec, hstatus⟩ := parts_of_frame hold
    obtain ⟨hm', hspec', hstatus'⟩ := parts_of_frame hnew
    rw [hmerged.member?_eq (by decide) (by simp [Store.metadataChange, member]), hspec] at hspec'
    rw [status?, hmerged.member?_eq (by decide) (by simp [Store.metadataChange, member]),
      ← status?, hstatus] at hstatus'
    exact ⟨Metadata.mixes_of_annotations hm hm' hmerged, .inl (Option.some.inj hspec').symm,
      .inl (Option.some.inj hstatus').symm⟩

theorem serves_storeIssuerStatus {old new : Issuer} {sent : List Api.Exchange}
    {outcome : Except Failure Unit}
    (ht : Program.Trace (Store.storeIssuerStatus issuer).run sent outcome) (hs : i.Patched sent k)
    (ho : Issuer.ofJson? issuer.scope (.object i) = some old)
    (hn : Issuer.ofJson? issuer.scope (.object k) = some new)
    (hstatus : issuer.status = some s) (htimely : s.Timely)
    (hw : w.issuers issuer.key = some old) :
    w.Serves (fun _ => True) ⟨.storeIssuerStatus issuer, outcome⟩
      (w.setIssuer issuer.key (some new)) := by
  refine .reported (.mixed hw ?_) outcome
  rcases hs.of_write ht with rfl | hmerged
  · cases ho.symm.trans hn
    exact ⟨.inl rfl, .inl ⟨old.metadata.stamp, rfl⟩, .inl rfl, .inl rfl, .inl rfl⟩
  · obtain ⟨⟨m, spec, status⟩, hold, hread⟩ := bind_eq_some ho
    cases hread
    obtain ⟨⟨m', spec', status'⟩, hnew, hread⟩ := bind_eq_some hn
    cases hread
    obtain ⟨hm, hspec, hread⟩ := parts_of_frame hold
    obtain ⟨hm', hspec', hstatus'⟩ := parts_of_frame hnew
    rw [hmerged.member?_eq (by decide) (by simp [member]), hspec] at hspec'
    rw [hmerged.status?_eq (by simp [IssuerStatus.toJson]), Issuer.currentStatus, hstatus,
      Option.getD_some] at hstatus'
    have hchanged := IssuerStatus.eq_or_eq_of_merged htimely hread hstatus'
    rw [← hstatus] at hchanged
    have heq := hm.eq_stamped hm' fun n hkept => hmerged.member?_metadata_of_notMem hkept
      (by simp [member])
    exact ⟨.inl rfl, .inl ⟨_, heq⟩, .inr (.inr trivial), .inl (Option.some.inj hspec').symm,
      hchanged⟩

end Holdings

end CertBroker
