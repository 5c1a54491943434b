import CertBroker.Json.Record
import CertBroker.Proofs.Json.Merge
import CertBroker.Proofs.Json.Text

namespace CertBroker.Json

/-- The member for a field, if there is a value for it. -/
def fieldMember (field : String × Slot) : List (String × Json) := memberIf field.1 id field.2

/-- The members of a record with these fields. -/
def membersOf (fields : List (String × Slot)) : List (String × Json) := fields.flatMap fieldMember

theorem member_eq (name : String) (value : Json) :
    member name value = fieldMember (name, some value) := rfl

theorem memberIf_eq {α : Type} (name : String) (write : α → Json) (x : Option α) :
    memberIf name write x = fieldMember (name, x.map write) := by
  cases x <;> rfl

/-- A value that is left out if it is the default. -/
def slotUnless {α : Type} (skipped : Bool) (write : α → Json) (a : α) : Slot :=
  if skipped then none else some (write a)

theorem memberList_eq {α : Type} (name : String) (write : α → Json) (values : List α) :
    memberList name write values =
      fieldMember (name, slotUnless values.isEmpty (fun vs => .array (vs.map write)) values) := by
  unfold memberList slotUnless
  split <;> rfl

theorem ite_fieldMember (skipped : Prop) [Decidable skipped] (name : String) (value : Json) :
    (if skipped then [] else fieldMember (name, some value)) =
      fieldMember (name, if skipped then none else some value) := by
  split <;> rfl

theorem membersNamed_fieldMember (name : String) (field : String × Slot) :
    membersNamed name (fieldMember field) = if field.1 = name then field.2.toList else [] := by
  obtain ⟨n, slot⟩ := field
  cases slot with
  | none => simp [fieldMember, memberIf, membersNamed]
  | some value => by_cases hn : n = name <;> simp [fieldMember, memberIf, membersNamed, hn]

theorem membersNamed_append (name : String) (first second : List (String × Json)) :
    membersNamed name (first ++ second) = membersNamed name first ++ membersNamed name second := by
  simp [membersNamed]

theorem membersNamed_of_notMem {name : String} {fields : List (String × Slot)}
    (h : name ∉ fields.map (·.1)) : membersNamed name (membersOf fields) = [] := by
  induction fields with
  | nil => rfl
  | cons field fields ih =>
    rw [List.map_cons, List.mem_cons, not_or] at h
    rw [membersOf, List.flatMap_cons, membersNamed_append, membersNamed_fieldMember,
      if_neg (Ne.symm h.1), List.nil_append]
    exact ih h.2

theorem membersNamed_membersOf {fields : List (String × Slot)} (h : (fields.map (·.1)).Nodup)
    {field : String × Slot} (hf : field ∈ fields) :
    membersNamed field.1 (membersOf fields) = field.2.toList := by
  induction fields with
  | nil => cases hf
  | cons first fields ih =>
    rw [List.map_cons, List.nodup_cons] at h
    rw [membersOf, List.flatMap_cons, membersNamed_append, membersNamed_fieldMember]
    rcases List.mem_cons.mp hf with rfl | hf
    · rw [if_pos rfl]
      exact (congrArg _ (membersNamed_of_notMem h.1)).trans (List.append_nil _)
    · have hne : first.1 ≠ field.1 := fun he =>
        h.1 (he ▸ List.mem_map_of_mem (f := (·.1)) hf)
      rw [if_neg hne, List.nil_append]
      exact ih h.2 hf

theorem slot?_of_toList {members : List (String × Json)} {name : String} {slot : Slot}
    (h : membersNamed name members = slot.toList) : slot? members name = some slot := by
  rw [slot?, h]
  cases slot <;> rfl

theorem mapM_map_eq_some {α β γ : Type} {f : β → Option γ} {g : α → β} {k : α → γ} {as : List α}
    (h : ∀ a ∈ as, f (g a) = some (k a)) : (as.map g).mapM f = some (as.map k) := by
  induction as with
  | nil => rfl
  | cons a as ih =>
    obtain ⟨ha, has⟩ := List.forall_mem_cons.mp h
    rw [List.map_cons, List.mapM_cons, ha, ih has]
    rfl

/-- Fields that are written under names of their own are read back, each in its place. -/
theorem record?_membersOf {fields : List (String × Slot)} {names : List String}
    (hnames : fields.map (·.1) = names) (h : names.Nodup) :
    record? names (.object (membersOf fields)) = some (fields.map (·.2)) := by
  subst hnames
  exact mapM_map_eq_some fun _ hf => slot?_of_toList (membersNamed_membersOf h hf)

theorem written_membersOf {depth : Nat} {fields : List (String × Slot)}
    (h : ∀ field ∈ fields, ∀ value ∈ field.2, Written depth value) :
    Written (depth + 1) (.object (membersOf fields)) := by
  refine .object fun m hm => ?_
  obtain ⟨⟨name, slot⟩, hfield, hm⟩ := List.mem_flatMap.mp hm
  cases slot with
  | none => cases hm
  | some value =>
    cases List.mem_singleton.mp hm
    exact h _ hfield value rfl

section Values

variable {α : Type} {read : Json → Option α} {write : α → Json} {depth : Nat}

/-- What is written of a value is no null, nests no deeper than this, and is read as the value. -/
structure Legible (depth : Nat) (read : Json → Option α) (write : α → Json) (a : α) : Prop where
  written : Written depth (write a)
  ne_null : write a ≠ .null
  read : read (write a) = some a

/-- What stands in a field nests no deeper than this and is read as the value. -/
structure LegibleSlot (depth : Nat) (read : Slot → Option α) (slot : Slot) (a : α) : Prop where
  written : ∀ value ∈ slot, Written depth value
  read : read slot = some a

namespace Legible

theorem text (depth : Nat) (s : String) : Legible depth text? .string s :=
  ⟨.string depth s, by simp, rfl⟩

theorem flag (depth : Nat) (b : Bool) : Legible depth flag? .bool b :=
  ⟨.bool depth b, by simp, rfl⟩

theorem items {as : List α} (h : ∀ a ∈ as, Legible depth read write a) :
    Legible (depth + 1) (items? read) (fun as => .array (as.map write)) as := by
  refine ⟨.array ?_, by simp, ?_⟩
  · intro item hitem
    obtain ⟨a, ha, rfl⟩ := List.mem_map.mp hitem
    exact (h a ha).written
  · have hread := mapM_map_eq_some (k := id) fun a ha => (h a ha).read
    exact hread.trans (congrArg some (List.map_id as))

theorem dict {d : Dict α} (h : ∀ e ∈ d.entries, Legible depth read write e.2) :
    Legible (depth + 1) (dict? read) (ofDict write) d := by
  refine ⟨.object ?_, by simp [ofDict], ?_⟩
  · intro m hm
    obtain ⟨e, he, rfl⟩ := List.mem_map.mp hm
    exact (h e he).written
  · have hread : (d.entries.map fun e => (e.1, write e.2)).mapM
        (fun m => (read m.2).map (m.1, ·)) = some (d.entries.map id) :=
      mapM_map_eq_some fun e he => by rw [(h e he).read]; rfl
    rw [ofDict, dict?, hread, List.map_id, Option.map_some, Dict.ofList_entries]

variable {a : α}

theorem required (h : Legible depth read write a) :
    LegibleSlot depth (required read) (some (write a)) a :=
  ⟨fun _ hv => Option.some.inj hv ▸ h.written, h.read⟩

theorem optional {x : Option α} (h : ∀ a ∈ x, Legible depth read write a) :
    LegibleSlot depth (optional read) (x.map write) x := by
  cases x with
  | none => exact ⟨by simp, rfl⟩
  | some a =>
    have ha := h a rfl
    refine ⟨fun _ hv => Option.some.inj hv ▸ ha.written, ?_⟩
    have hread : Json.optional read (some (write a)) = (read (write a)).map some := by
      rw [Json.optional]
      exact ha.ne_null
    rw [Option.map_some, hread, ha.read, Option.map_some]

/-- A value that is written even if it is the default. -/
theorem kept (default : α) (h : Legible depth read write a) :
    LegibleSlot depth (Json.defaulted default read) (some (write a)) a :=
  ⟨h.required.written, h.read⟩

/-- What is left out is the default. -/
theorem defaulted {default : α} {skipped : Bool} (hskip : skipped = true → a = default)
    (h : Legible depth read write a) :
    LegibleSlot depth (defaulted default read) (slotUnless skipped write a) a := by
  unfold slotUnless
  split
  next hs => exact ⟨by simp, congrArg some (hskip hs).symm⟩
  next => exact ⟨h.required.written, h.read⟩

/-- A record of legible fields that have names of their own, read in the order of the names. -/
theorem record {names : List String} {fields : List (String × Slot)}
    {build : List Slot → Option α} (hwrite : write a = .object (membersOf fields))
    (hread : ∀ j, read j = (record? names j).bind build)
    (hnames : fields.map (·.1) = names) (hnodup : names.Nodup)
    (hwritten : ∀ field ∈ fields, ∀ value ∈ field.2, Written depth value)
    (hbuild : build (fields.map (·.2)) = some a) : Legible (depth + 1) read write a := by
  refine ⟨?_, by simp [hwrite], ?_⟩
  · rw [hwrite]
    exact written_membersOf hwritten
  · rw [hread, hwrite, record?_membersOf hnames hnodup, Option.bind_some, hbuild]

end Legible

end Values

/-- The value of a text. -/
def readText {α : Type} (read : Json → Option α) (text : String) : Option α :=
  (parse? text).bind read

/-- A text as it is written again. -/
def rewriteText {α : Type} (read : Json → Option α) (write : α → Json) (text : String) :
    Option String :=
  (readText read text).map fun a => toText (write a)

/-- Values are read back from what is written of them, as values and as texts. These are all values
that can be read, and what was written again once stays as it is. -/
structure RoundTrips {α : Type} (read : Json → Option α) (write : α → Json) (Proper : α → Prop) :
    Prop where
  read_write : ∀ a, Proper a → read (write a) = some a
  readText_write : ∀ a, Proper a → readText read (toText (write a)) = some a
  proper_of_read : ∀ j a, read j = some a → Proper a
  rewriteText_idem : ∀ text again, rewriteText read write text = some again →
    rewriteText read write again = some again

theorem roundTrips_of_legible {α : Type} {read : Json → Option α} {write : α → Json}
    {Proper : α → Prop} (h : ∀ a, Proper a → Legible depthLimit read write a)
    (hproper : ∀ j a, read j = some a → Proper a) : RoundTrips read write Proper := by
  have htext (a : α) (ha : Proper a) : readText read (toText (write a)) = some a := by
    rw [readText, parse?_toText (h a ha).written, Option.bind_some, (h a ha).read]
  refine ⟨fun a ha => (h a ha).read, htext, hproper, ?_⟩
  intro text again hagain
  obtain ⟨a, ha, rfl⟩ := Option.map_eq_some_iff.mp hagain
  obtain ⟨j, -, hj⟩ := Option.bind_eq_some_iff.mp ha
  rw [rewriteText, htext a (hproper j a hj), Option.map_some]

end CertBroker.Json
