import CertBroker.Cluster.Ledger
import CertBroker.Cluster.Store
import CertBroker.Proofs.Json.Merge

namespace CertBroker

open Json

/-- The members of an object at the API server. -/
abbrev Stored := List (String × Json)

/-- What the members of an object say of a metadata, but for what the server sets itself. -/
structure Metadata.Fields (ms : Stored) (m : Metadata) : Prop where
  annotations : Json.optional (dict? text?) (looseSlot ms "annotations") = some m.annotations
  creationTimestamp : Json.optional Time.ofJson? (looseSlot ms "creationTimestamp") =
    some m.creationTimestamp
  deletionGracePeriodSeconds : Json.optional int64? (looseSlot ms "deletionGracePeriodSeconds") =
    some m.deletionGracePeriodSeconds
  deletionTimestamp : Json.optional Time.ofJson? (looseSlot ms "deletionTimestamp") =
    some m.deletionTimestamp
  finalizers : Json.optional (items? text?) (looseSlot ms "finalizers") = some m.finalizers
  generateName : Json.optional text? (looseSlot ms "generateName") = some m.generateName
  labels : Json.optional (dict? text?) (looseSlot ms "labels") = some m.labels
  name : Json.optional text? (looseSlot ms "name") = some m.name
  ns : Json.optional text? (looseSlot ms "namespace") = some m.ns
  ownerReferences : Json.optional (items? OwnerReference.ofJson?) (looseSlot ms "ownerReferences") =
    some m.ownerReferences
  selfLink : Json.optional text? (looseSlot ms "selfLink") = some m.selfLink
  uid : Json.optional text? (looseSlot ms "uid") = some m.uid

namespace Stored

variable {j : Stored} {r : CertificateRequest}

def metadata (j : Stored) : Stored := ((member? "metadata" j).bind members?).getD []

def status? (j : Stored) : Option Json := member? "status" j

def annotation? (j : Stored) (key : String) : Option String :=
  ((member? "annotations" j.metadata).bind (get? key)).bind text?

/-- The object has an annotation with a value that is not empty. -/
def Carries (j : Stored) (key : String) : Prop := ∃ id, j.annotation? key = some id ∧ id ≠ ""

/-- The status as it is read, an empty one if there is none that can be read. -/
def currentStatus (j : Stored) : RequestStatus :=
  (Json.optional RequestStatus.ofJson? j.status?).join.getD {}

/-- Our finalizer stands on the object. -/
def HasFinalizer (j : Stored) : Prop :=
  ∃ items, member? "finalizers" j.metadata = some (.array items) ∧
    Json.string finalizerName ∈ items

/-- The object at this address reads as this request. -/
structure Holds (j : Stored) (a : Api.Address) (r : CertificateRequest) : Prop where
  read : CertificateRequest.ofJson? (.object j) = some r
  address : Store.addressOf Store.requestKind r.metadata = a

theorem member?_of_slot? {name : String} {slot : Slot} (h : slot? j name = some slot) :
    member? name j = slot := by
  unfold slot? at h
  split at h
  next hn =>
    cases h
    rw [member?, hn]
    rfl
  next value hn =>
    cases h
    rw [member?, hn]
    rfl
  next => exact absurd h (by simp)

theorem bind_eq_some {α β : Type} {x : Option α} {f : α → Option β} {b : β}
    (h : (x >>= f) = some b) : ∃ a, x = some a ∧ f a = some b :=
  Option.bind_eq_some_iff.mp h

/-- A field that is read of metadata is absent, or stands there. -/
theorem read_slot {α : Type} {read : Json → Option α} {name : String} {x : Option α}
    (h : Json.optional read (looseSlot j name) = some x) :
    (x = none ∧ (member? name j = none ∨ member? name j = some .null)) ∨
      ∃ value y, member? name j = some value ∧ read value = some y ∧ x = some y := by
  unfold looseSlot at h
  split at h
  next hn =>
    cases h
    exact .inl ⟨rfl, .inr hn⟩
  next hn =>
    cases hm : member? name j with
    | none =>
      rw [hm] at h
      cases h
      exact .inl ⟨rfl, .inl rfl⟩
    | some value =>
      rw [hm] at h
      cases value with
      | null => exact absurd hm hn
      | _ =>
        obtain ⟨y, hy, rfl⟩ := Option.map_eq_some_iff.mp h
        exact .inr ⟨_, y, rfl, hy, rfl⟩

theorem eq_of_member?_eq {α : Type} {read : Json → Option α} {name : String} {x x' : Option α}
    {j' : Stored} (hsame : member? name j' = member? name j)
    (h : Json.optional read (looseSlot j name) = some x)
    (h' : Json.optional read (looseSlot j' name) = some x') : x' = x := by
  have hslot : looseSlot j' name = looseSlot j name := by rw [looseSlot, hsame, looseSlot]
  rw [hslot] at h'
  exact Option.some.inj (h'.symm.trans h)

theorem items_eq_of_mapM {items : List Json} {texts : List String}
    (h : items.mapM text? = some texts) : items = texts.map .string := by
  induction items generalizing texts with
  | nil =>
    cases h
    rfl
  | cons item rest ih =>
    simp only [List.mapM_cons, Option.bind_eq_bind, Option.bind_eq_some_iff] at h
    obtain ⟨text, htext, others, hothers, hall⟩ := h
    cases hall
    cases item with
    | string s =>
      cases htext
      rw [List.map_cons, ← ih hothers]
    | _ => exact absurd htext (by simp [text?])

theorem fields_of_metadata {v : Json} {m : Metadata} (h : Metadata.ofJson? v = some m) :
    ∃ ms, v = .object ms ∧ Metadata.Fields ms m := by
  obtain ⟨fields, hfields, hrest⟩ := bind_eq_some h
  cases v with
  | object ms =>
    cases hfields
    -- The fields are read in the order of their names.
    obtain ⟨annotations, hannotations, hrest⟩ := bind_eq_some hrest
    obtain ⟨creationTimestamp, hcreation, hrest⟩ := bind_eq_some hrest
    obtain ⟨deletionGracePeriodSeconds, hgrace, hrest⟩ := bind_eq_some hrest
    obtain ⟨deletionTimestamp, hdeletion, hrest⟩ := bind_eq_some hrest
    obtain ⟨finalizers, hfinalizers, hrest⟩ := bind_eq_some hrest
    obtain ⟨generateName, hgenerate, hrest⟩ := bind_eq_some hrest
    obtain ⟨generation, -, hrest⟩ := bind_eq_some hrest
    obtain ⟨labels, hlabels, hrest⟩ := bind_eq_some hrest
    obtain ⟨managedFields, -, hrest⟩ := bind_eq_some hrest
    obtain ⟨name, hname, hrest⟩ := bind_eq_some hrest
    obtain ⟨ns, hns, hrest⟩ := bind_eq_some hrest
    obtain ⟨ownerReferences, howners, hrest⟩ := bind_eq_some hrest
    obtain ⟨resourceVersion, -, hrest⟩ := bind_eq_some hrest
    obtain ⟨selfLink, hlink, hrest⟩ := bind_eq_some hrest
    obtain ⟨uid, huid, hrest⟩ := bind_eq_some hrest
    cases hrest
    exact ⟨ms, rfl, hannotations, hcreation, hgrace, hdeletion, hfinalizers, hgenerate, hlabels,
      hname, hns, howners, hlink, huid⟩
  | _ => exact absurd hfields (by simp [looseRecord?])

/-- An object that reads as metadata, specification and status has all three. -/
theorem parts_of_frame {σ τ : Type} {spec : Json → Option σ} {status : Json → Option τ}
    {m : Metadata} {s : σ} {t : Option τ}
    (h : Resource.frame? spec status (.object j) = some (m, s, t)) :
    Metadata.Fields j.metadata m ∧ required spec (member? "spec" j) = some s ∧
      Json.optional status j.status? = some t := by
  simp only [Resource.frame?, record?, List.mapM_cons, List.mapM_nil, Option.bind_eq_bind,
    Option.bind_eq_some_iff] at h
  obtain ⟨_, ⟨found, hm, _, ⟨stated, hs, _, ⟨held, ht, _, hnil, hlast⟩, hmiddle⟩, hall⟩, h⟩ := h
  cases hnil
  cases hlast
  cases hmiddle
  cases hall
  simp only at h
  split at h
  next => exact absurd h (by simp)
  next =>
    simp only [Option.bind_eq_some_iff] at h
    obtain ⟨m', hm', s', hs', t', ht', h⟩ := h
    cases h
    cases found with
    | none => exact absurd hm' (by simp [required])
    | some value =>
      obtain ⟨ms, rfl, hfields⟩ := fields_of_metadata hm'
      have hmetadata : j.metadata = ms := by
        rw [metadata, member?_of_slot? hm]
        rfl
      rw [hmetadata, status?, member?_of_slot? hs, member?_of_slot? ht]
      exact ⟨hfields, hs', ht'⟩

/-- An object that reads as a request has its metadata, its specification and its status. -/
theorem parts_of_read (h : CertificateRequest.ofJson? (.object j) = some r) :
    Metadata.Fields j.metadata r.metadata ∧
      required RequestSpec.ofJson? (member? "spec" j) = some r.spec ∧
      Json.optional RequestStatus.ofJson? j.status? = some r.status := by
  obtain ⟨⟨m, s, t⟩, hframe, hr⟩ := bind_eq_some h
  cases hr
  exact parts_of_frame hframe

theorem annotation?_of_fields {m : Metadata} (h : Metadata.Fields j.metadata m) (key : String) :
    m.annotation? key = j.annotation? key := by
  unfold Metadata.annotation? Stored.annotation?
  rcases read_slot h.annotations with ⟨hnone, hm | hm⟩ | ⟨value, d, hm, hd, hsome⟩
  · rw [hnone, hm]
    rfl
  · rw [hnone, hm]
    rfl
  · rw [hsome, hm]
    cases value with
    | object texts => exact get?_of_dict? hd key
    | _ => simp [dict?] at hd

namespace Holds

variable {a : Api.Address} (h : j.Holds a r)

include h

theorem metadata : Metadata.Fields j.metadata r.metadata := (parts_of_read h.read).1

theorem annotation? (key : String) : r.metadata.annotation? key = j.annotation? key :=
  annotation?_of_fields h.metadata key

theorem entry? (key : String) :
    r.metadata.entry? key = (j.annotation? key).filter fun v => !v.isEmpty := by
  unfold Metadata.entry?
  rw [h.annotation?]

theorem carries_iff (key : String) : j.Carries key ↔ (r.metadata.entry? key).isSome = true := by
  rw [h.entry?, Carries]
  cases j.annotation? key <;> simp

theorem status : Json.optional RequestStatus.ofJson? j.status? = some r.status :=
  (parts_of_read h.read).2.2

theorem currentStatus_eq : j.currentStatus = r.currentStatus := by
  rw [Stored.currentStatus, h.status]
  rfl

theorem hasFinalizer_iff : r.metadata.hasFinalizer = true ↔ j.HasFinalizer := by
  unfold Metadata.hasFinalizer HasFinalizer
  rcases read_slot h.metadata.finalizers with ⟨hnone, hm | hm⟩ | ⟨value, texts, hm, ht, hsome⟩
  · simp [hnone, hm]
  · simp [hnone, hm]
  · rw [hsome, hm]
    cases value with
    | array items =>
      have hread : items = texts.map .string := items_eq_of_mapM ht
      simp [hread]
    | _ => simp [items?] at ht

end Holds

end Stored

end CertBroker
