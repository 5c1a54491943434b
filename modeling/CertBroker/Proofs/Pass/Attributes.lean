import CertBroker.Pass.Attributes

namespace CertBroker.Attributes

/-- One of the attributes; each label is one of its own. -/
inductive Field where
  | owner
  | team
  | contactEmail
  | label (key : String)
deriving DecidableEq

namespace Field

/-- The key of the annotation with the attribute. -/
def annotation : Field → String
  | .owner => Annotation.owner
  | .team => Annotation.team
  | .contactEmail => Annotation.contactEmail
  | .label key => Annotation.labelStart ++ key

def inTemplate (t : AttributeTemplate) : Field → Option String
  | .owner => t.owner
  | .team => t.team
  | .contactEmail => t.contactEmail
  | .label key => t.labels.get? key

/-- What an issuer and the annotations say of an attribute, from the layer that wins on. -/
def layers (spec : IssuerSpec) (ingress certificate : Option (Dict String)) (f : Field) :
    List (Option String) :=
  [spec.overrideTemplate.bind (inTemplate · f), certificate.bind (·.get? f.annotation),
    ingress.bind (·.get? f.annotation), spec.defaultTemplate.bind (inTemplate · f)]

end Field

def get? (a : Attributes) : Field → Option String
  | .owner => a.owner
  | .team => a.team
  | .contactEmail => a.contactEmail
  | .label key => a.labels.get? key

/-- A value that is not empty. -/
def filled (value : Option String) : Option String := value.filter fun v => !v.isEmpty

/-- The first value that is not empty. -/
def firstFilled (values : List (Option String)) : Option String := values.findSome? filled

@[simp] theorem filled_none : filled none = none := rfl

theorem filled_some (v : String) : filled (some v) = if v.isEmpty then none else some v := by
  cases hv : v.isEmpty <;> simp [filled, Option.filter_some, hv]

theorem filled_eq_some_iff {value : Option String} {v : String} :
    filled value = some v ↔ value = some v ∧ v ≠ "" := by
  simp [filled, Option.filter_eq_some_iff]

variable {a : Attributes} {f : Field} {labels : Dict String} {key : String}

theorem preferred_eq (current value : Option String) :
    preferred current value = (filled value).or current := by
  cases value with
  | none => rfl
  | some v =>
    rw [filled_some]
    cases hv : v.isEmpty with
    | true => simp [preferred, hv]
    | false => simp [preferred, hv]

/-- Labels are added key by key. No key stands twice among those that are added, so that the order
in which they are does not matter. -/
theorem get?_addLabels {added : List (String × String)} (hadded : (added.map (·.1)).Nodup) :
    (addLabels labels added).get? key =
      if key = "" then labels.get? key
      else (filled (Dict.find key added)).or (labels.get? key) := by
  induction added generalizing labels with
  | nil => simp [addLabels, Dict.find]
  | cons l added ih =>
    obtain ⟨hl, hadded⟩ := List.nodup_cons.mp hadded
    have hcons : addLabels labels (l :: added) =
        addLabels (if l.1.isEmpty || l.2.isEmpty then labels else labels.insert l.1 l.2) added :=
      rfl
    rw [hcons, ih hadded]
    by_cases hkey : l.1 = key
    · subst hkey
      have hother : Dict.find l.1 added = none := by
        cases hfound : Dict.find l.1 added with
        | none => rfl
        | some v => exact absurd (List.mem_map_of_mem (Dict.mem_of_find_eq_some hfound)) hl
      rw [hother]
      by_cases hempty : l.1 = ""
      · simp [hempty]
      · cases hv : l.2.isEmpty with
        | true => simp [Dict.find, filled_some, hv, hempty]
        | false => simp [Dict.find, filled_some, hv, hempty]
    · have hkept : (if l.1.isEmpty || l.2.isEmpty then labels
          else labels.insert l.1 l.2).get? key = labels.get? key := by
        split
        next => rfl
        next => rw [Dict.get?_insert, if_neg hkey]
      rw [hkept, Dict.find, if_neg hkey]

theorem keys_nodup (d : Dict String) : (d.entries.map (·.1)).Nodup := by
  refine List.pairwise_map.mpr (d.ascending.imp fun {e e'} hbefore heq => ?_)
  rw [heq, Text.before_irrefl] at hbefore
  cases hbefore

theorem label?_eq_some_iff {l : String} :
    label? key = some l ↔ key = Annotation.labelStart ++ l := by
  unfold label?
  constructor
  · intro h
    split at h
    next hstart =>
      obtain ⟨rest, hrest⟩ := List.isPrefixOf_iff_prefix.mp hstart
      cases h
      rw [← String.toList_inj, String.toList_append, String.toList_ofList, ← hrest,
        List.drop_left]
    next => cases h
  · rintro rfl
    rw [if_pos (List.isPrefixOf_iff_prefix.mpr (by simp)), String.toList_append, List.drop_left,
      String.ofList_toList]

/-- The labels in annotations, with their values. -/
def labelsIn (d : Dict String) : List (String × String) :=
  d.entries.filterMap fun e => (label? e.1).map fun l => (l, e.2)

theorem find_labelsIn (d : Dict String) :
    Dict.find key (labelsIn d) = (d.get? <| Annotation.labelStart ++ key) := by
  unfold labelsIn Dict.get?
  induction d.entries with
  | nil => rfl
  | cons e entries ih =>
    cases hl : label? e.1 with
    | none =>
      have hne : e.1 ≠ Annotation.labelStart ++ key := fun heq => by
        rw [label?_eq_some_iff.mpr heq] at hl
        cases hl
      rw [List.filterMap_cons_none (by rw [hl]; rfl), ih, Dict.find, if_neg hne]
    | some l =>
      have he := label?_eq_some_iff.mp hl
      rw [List.filterMap_cons_some (by rw [hl]; rfl), Dict.find, Dict.find, ih, he]
      simp only [String.append_right_inj]

theorem labelsIn_nodup (d : Dict String) : ((labelsIn d).map (·.1)).Nodup := by
  have hkeys : ((labelsIn d).map fun l => Annotation.labelStart ++ l.1).Sublist
      (d.entries.map (·.1)) := by
    unfold labelsIn
    induction d.entries with
    | nil => exact List.Sublist.refl _
    | cons e entries ih =>
      cases hl : label? e.1 with
      | none =>
        rw [List.filterMap_cons_none (by rw [hl]; rfl)]
        exact ih.cons _
      | some l =>
        rw [List.filterMap_cons_some (by rw [hl]; rfl), List.map_cons, List.map_cons,
          ← label?_eq_some_iff.mp hl]
        exact ih.cons_cons _
  have hnodup := hkeys.nodup (keys_nodup d)
  rw [List.Nodup, List.pairwise_map] at hnodup
  exact List.pairwise_map.mpr (hnodup.imp fun hne heq => hne (by rw [heq]))

theorem get?_withTemplate (hf : f ≠ .label "") (template : Option AttributeTemplate) :
    (a.withTemplate template).get? f =
      (filled (template.bind (Field.inTemplate · f))).or (a.get? f) := by
  cases template with
  | none => rfl
  | some t =>
    cases f with
    | owner => exact preferred_eq ..
    | team => exact preferred_eq ..
    | contactEmail => exact preferred_eq ..
    | label key =>
      have hkey : key ≠ "" := fun h => hf (by rw [h])
      exact (get?_addLabels (keys_nodup t.labels)).trans (if_neg hkey)

theorem get?_withAnnotations (hf : f ≠ .label "") (annotations : Option (Dict String)) :
    (a.withAnnotations annotations).get? f =
      (filled (annotations.bind (·.get? f.annotation))).or (a.get? f) := by
  cases annotations with
  | none => rfl
  | some d =>
    cases f with
    | owner => exact preferred_eq ..
    | team => exact preferred_eq ..
    | contactEmail => exact preferred_eq ..
    | label key =>
      have hkey : key ≠ "" := fun h => hf (by rw [h])
      refine ((get?_addLabels (labelsIn_nodup d)).trans (if_neg hkey)).trans ?_
      rw [find_labelsIn]
      rfl

/-- No layer gives a label without a key. -/
theorem nameless_withTemplate (template : Option AttributeTemplate) :
    (a.withTemplate template).labels.get? "" = a.labels.get? "" := by
  cases template with
  | none => rfl
  | some t => exact (get?_addLabels (keys_nodup t.labels)).trans (if_pos rfl)

theorem nameless_withAnnotations (annotations : Option (Dict String)) :
    (a.withAnnotations annotations).labels.get? "" = a.labels.get? "" := by
  cases annotations with
  | none => rfl
  | some d => exact (get?_addLabels (labelsIn_nodup d)).trans (if_pos rfl)

theorem ext_get? {b : Attributes} (h : ∀ f, a.get? f = b.get? f) : a = b := by
  obtain ⟨owner, team, contactEmail, labels⟩ := a
  obtain ⟨owner', team', contactEmail', labels'⟩ := b
  rw [mk.injEq]
  exact ⟨h .owner, h .team, h .contactEmail, Dict.eq_of_get?_eq fun key => h (.label key)⟩

variable {spec : IssuerSpec} {ingress certificate : Option (Dict String)}

theorem get?_resolve (hf : f ≠ .label "") :
    (resolve spec ingress certificate).get? f =
      firstFilled (f.layers spec ingress certificate) := by
  have hnothing : ({} : Attributes).get? f = none := by cases f <;> rfl
  simp only [resolve, get?_withTemplate hf, get?_withAnnotations hf, hnothing, Option.or_none,
    firstFilled, Field.layers, List.findSome?_cons, List.findSome?_nil]
  cases filled (spec.overrideTemplate.bind (Field.inTemplate · f)) with
  | some v => rfl
  | none =>
    cases filled (certificate.bind (·.get? f.annotation)) with
    | some v => rfl
    | none =>
      cases filled (ingress.bind (·.get? f.annotation)) with
      | some v => rfl
      | none => cases filled (spec.defaultTemplate.bind (Field.inTemplate · f)) <;> rfl

theorem nameless_resolve : (resolve spec ingress certificate).labels.get? "" = none := by
  simp only [resolve, nameless_withTemplate, nameless_withAnnotations]
  rfl

theorem firstFilled_eq_some {values : List (Option String)} {v : String}
    (h : firstFilled values = some v) : some v ∈ values ∧ v ≠ "" := by
  obtain ⟨value, hmem, hvalue⟩ := List.exists_of_findSome?_eq_some h
  obtain ⟨rfl, hne⟩ := filled_eq_some_iff.mp hvalue
  exact ⟨hmem, hne⟩

theorem isSome_firstFilled_iff {values : List (Option String)} :
    (firstFilled values).isSome = true ↔ ∃ v, v ≠ "" ∧ some v ∈ values := by
  rw [firstFilled, List.findSome?_isSome_iff]
  constructor
  · rintro ⟨value, hmem, hvalue⟩
    obtain ⟨v, hv⟩ := Option.isSome_iff_exists.mp hvalue
    obtain ⟨rfl, hne⟩ := filled_eq_some_iff.mp hv
    exact ⟨v, hne, hmem⟩
  · rintro ⟨v, hne, hmem⟩
    exact ⟨some v, hmem, by rw [filled_eq_some_iff.mpr ⟨rfl, hne⟩]; rfl⟩

/-- Owner, team, contact email and each label have the first value of their layers that is not
empty. There are exactly the labels with such a value, none without a key or a value. Annotations
with other keys do not count: two pairs of annotations in which all attributes say the same give the
same. -/
theorem resolve_in_layers (spec : IssuerSpec) (ingress certificate : Option (Dict String)) :
    (∀ f : Field, f ≠ .label "" →
      (resolve spec ingress certificate).get? f =
        firstFilled (f.layers spec ingress certificate)) ∧
    (∀ key, (resolve spec ingress certificate).labels.contains key = true ↔
      key ≠ "" ∧ ∃ v, v ≠ "" ∧ some v ∈ (Field.label key).layers spec ingress certificate) ∧
    (∀ key v, (resolve spec ingress certificate).labels.get? key = some v → v ≠ "") ∧
    (∀ ingress' certificate' : Option (Dict String),
      (∀ f : Field, f ≠ .label "" →
        ingress'.bind (·.get? f.annotation) = ingress.bind (·.get? f.annotation) ∧
          certificate'.bind (·.get? f.annotation) = certificate.bind (·.get? f.annotation)) →
      resolve spec ingress' certificate' = resolve spec ingress certificate) := by
  refine ⟨fun f hf => get?_resolve hf, fun key => ?_, fun key v hv => ?_,
    fun ingress' certificate' hsame => ext_get? fun f => ?_⟩
  · by_cases hkey : key = ""
    · simp [hkey, Dict.contains, nameless_resolve]
    · have hread : (resolve spec ingress certificate).labels.get? key =
          firstFilled ((Field.label key).layers spec ingress certificate) :=
        get?_resolve (f := .label key) (by simpa using hkey)
      rw [Dict.contains, hread, isSome_firstFilled_iff, and_iff_right hkey]
  · have hkey : key ≠ "" := by
      rintro rfl
      rw [nameless_resolve] at hv
      cases hv
    exact (firstFilled_eq_some
      ((get?_resolve (f := .label key) (by simpa using hkey)).symm.trans hv)).2
  · by_cases hf : f = .label ""
    · rw [hf]
      exact nameless_resolve.trans nameless_resolve.symm
    · obtain ⟨hingress, hcertificate⟩ := hsame f hf
      rw [get?_resolve hf, get?_resolve hf, Field.layers, Field.layers, hingress, hcertificate]

/-- A label of the default template, which every other layer leaves empty or replaces. -/
def sampleSpec : IssuerSpec where
  url := "https://pki"
  profile := "web"
  authSecretName := "creds"
  defaultTemplate := some {
    team := some "platform", labels := .ofList [("env", "dev"), ("tier", "web")] }
  overrideTemplate := some { owner := some "", labels := .ofList [("env", "")] }

def sampleAnnotations : Dict String :=
  Dict.empty.insert Annotation.owner "shop"
    |>.insert Annotation.team ""
    |>.insert Annotation.labelStart "nameless"
    |>.insert "pki.microscaler.io/labels.env" "staging"

/-- An override that is empty leaves the annotation in force, an empty annotation the default, and
an annotation with any other key changes nothing. -/
theorem resolve_sampleSpec :
    (∀ f ∈ [Field.owner, .team, .label "env", .label "tier"], f ≠ .label "") ∧
      [Field.owner, .team, .label "env", .label "tier"].map
          (resolve sampleSpec none (some sampleAnnotations)).get? =
        [some "shop", some "platform", some "staging", some "web"] ∧
      resolve sampleSpec none (some (sampleAnnotations.insert "unrelated.io/owner" "else")) =
        resolve sampleSpec none (some sampleAnnotations) := by
  obtain ⟨hfields, -, -, hothers⟩ := resolve_in_layers sampleSpec none (some sampleAnnotations)
  have hnamed : ∀ f ∈ [Field.owner, .team, .label "env", .label "tier"], f ≠ .label "" := by
    decide
  refine ⟨hnamed, ?_, hothers none _ fun f _ => ⟨rfl, ?_⟩⟩
  · rw [List.map_congr_left fun f hf => hfields f (hnamed f hf)]
    decide +kernel
  · have hother : "unrelated.io/owner" ≠ f.annotation := by
      intro h
      have hhead := congrArg (fun s : String => s.toList.head?) h
      cases f <;> simp [Field.annotation, Annotation.owner, Annotation.team,
        Annotation.contactEmail, Annotation.labelStart] at hhead
    simp [Dict.get?_insert, hother]

end CertBroker.Attributes
