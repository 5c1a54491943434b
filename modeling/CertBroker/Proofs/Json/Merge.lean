import CertBroker.Json.MergePatch
import CertBroker.Json.Record

namespace CertBroker.Json

variable {n k : String} {v : Json} {ms t : List (String × Json)}

@[simp] theorem member?_nil (n : String) : member? n [] = none := rfl

theorem member?_cons (n k : String) (v : Json) (rest : List (String × Json)) :
    member? n ((k, v) :: rest) =
      (member? n rest).or (if k = n then some v else none) := by
  by_cases hk : k = n
  · have hnamed : membersNamed n ((k, v) :: rest) = v :: membersNamed n rest := by
      simp [membersNamed, hk]
    rw [member?, hnamed, List.getLast?_cons, if_pos hk, member?]
    cases (membersNamed n rest).getLast? <;> rfl
  · have hnamed : membersNamed n ((k, v) :: rest) = membersNamed n rest := by
      simp [membersNamed, hk]
    rw [member?, hnamed, if_neg hk, Option.or_none, member?]

theorem member?_dropMember (n k : String) (ms : List (String × Json)) :
    member? n (dropMember k ms) = if n = k then none else member? n ms := by
  induction ms with
  | nil => simp [dropMember]
  | cons head rest ih =>
    obtain ⟨name, value⟩ := head
    by_cases hname : name = k
    · have hdrop : dropMember k ((name, value) :: rest) = dropMember k rest := by
        simp [dropMember, hname]
      rw [hdrop, ih, member?_cons]
      split
      next => rfl
      next hn => rw [if_neg (fun h => hn (h.symm.trans hname)), Option.or_none]
    · have hdrop : dropMember k ((name, value) :: rest) =
          (name, value) :: dropMember k rest := by
        simp [dropMember, hname]
      rw [hdrop, member?_cons, ih, member?_cons]
      split
      next hn =>
        subst hn
        rw [if_neg hname]
        rfl
      next => rfl

theorem member?_setMember (n k : String) (v : Json) (ms : List (String × Json)) :
    member? n (setMember k v ms) = if n = k then some v else member? n ms := by
  induction ms with
  | nil =>
    rw [setMember, member?_cons]
    by_cases hn : n = k
    · simp [hn]
    · simp [hn, Ne.symm hn]
  | cons head rest ih =>
    obtain ⟨name, value⟩ := head
    rw [setMember]
    split
    next hname =>
      rw [member?_cons, member?_dropMember, member?_cons]
      by_cases hn : n = k
      · simp [hn, hname]
      · have hne : name ≠ n := fun h => hn (h ▸ hname)
        simp [hn, hne]
    next hname =>
      rw [member?_cons, ih, member?_cons]
      by_cases hn : n = k
      · have hne : name ≠ n := fun h => hname (h.trans hn)
        simp [hn]
      · simp [hn]

def mergeMember (name : String) (patch : Json) (target : List (String × Json)) :
    List (String × Json) :=
  match patch with
  | .null => dropMember name target
  | patch => setMember name (mergePatch ((member? name target).getD .null) patch) target

@[simp] theorem mergeMembers_nil (t : List (String × Json)) : mergeMembers t [] = t := by
  rw [mergeMembers]

theorem mergeMembers_cons (t : List (String × Json)) (name : String) (patch : Json)
    (rest : List (String × Json)) :
    mergeMembers t ((name, patch) :: rest) = mergeMembers (mergeMember name patch t) rest := by
  cases patch <;> rw [mergeMembers] <;> first | rfl | simp

theorem mergeMembers_append (t first second : List (String × Json)) :
    mergeMembers t (first ++ second) = mergeMembers (mergeMembers t first) second := by
  induction first generalizing t with
  | nil => simp
  | cons head rest ih =>
    obtain ⟨name, patch⟩ := head
    rw [List.cons_append, mergeMembers_cons, mergeMembers_cons, ih]

theorem member?_mergeMember_of_ne {name : String} (h : n ≠ name) (patch : Json)
    (t : List (String × Json)) : member? n (mergeMember name patch t) = member? n t := by
  unfold mergeMember
  split
  next => rw [member?_dropMember, if_neg h]
  next => rw [member?_setMember, if_neg h]

theorem member?_mergeMember_self {patch : Json} (h : patch ≠ .null) (name : String)
    (t : List (String × Json)) :
    member? name (mergeMember name patch t) =
      some (mergePatch ((member? name t).getD .null) patch) := by
  unfold mergeMember
  split
  next => exact absurd rfl h
  next => rw [member?_setMember, if_pos rfl]

theorem member?_mergeMember_null (name : String) (t : List (String × Json)) :
    member? name (mergeMember name .null t) = none := by
  rw [mergeMember, member?_dropMember, if_pos rfl]

/-- A patch keeps what it does not name. -/
theorem member?_mergeMembers_of_notMem {patch : List (String × Json)}
    (h : n ∉ patch.map Prod.fst) (t : List (String × Json)) :
    member? n (mergeMembers t patch) = member? n t := by
  induction patch generalizing t with
  | nil => rw [mergeMembers_nil]
  | cons head rest ih =>
    obtain ⟨name, value⟩ := head
    rw [List.map_cons, List.mem_cons, not_or] at h
    rw [mergeMembers_cons, ih h.2, member?_mergeMember_of_ne h.1]

theorem mem_of_member? (h : member? n ms = some v) : (n, v) ∈ ms := by
  induction ms with
  | nil => simp at h
  | cons head rest ih =>
    obtain ⟨name, value⟩ := head
    rw [member?_cons] at h
    rcases Option.or_eq_some_iff.mp h with h | ⟨_, h⟩
    · exact List.mem_cons_of_mem _ (ih h)
    · split at h
      next hname =>
        cases h
        rw [hname]
        exact List.mem_cons_self
      next => exact absurd h (by simp)

theorem member?_texts (t : List (String × Json)) {entries : List (String × String)}
    (h : entries.Pairwise fun a b => Text.before a.1 b.1) (key : String) :
    member? key (mergeMembers t (entries.map fun e => (e.1, .string e.2))) =
      ((Dict.find key entries).map .string).or (member? key t) := by
  induction entries generalizing t with
  | nil => simp [Dict.find]
  | cons head rest ih =>
    obtain ⟨name, text⟩ := head
    obtain ⟨hfirst, hrest⟩ := List.pairwise_cons.mp h
    rw [List.map_cons, mergeMembers_cons, ih _ hrest, Dict.find]
    split
    next hname =>
      subst hname
      rw [Dict.find_eq_none hfirst, member?_mergeMember_self (by simp)]
      rfl
    next hname => rw [member?_mergeMember_of_ne (Ne.symm hname)]

theorem text?_of_mapM {members : List (String × Json)} {entries : List (String × String)}
    (h : members.mapM (fun m => (text? m.2).map (m.1, ·)) = some entries) {m : String × Json}
    (hm : m ∈ members) : ∃ text, text? m.2 = some text := by
  induction members generalizing entries with
  | nil => simp at hm
  | cons head rest ih =>
    simp only [List.mapM_cons, Option.bind_eq_bind, Option.bind_eq_some_iff,
      Option.map_eq_some_iff] at h
    obtain ⟨_, ⟨text, htext, _⟩, others, hothers, _⟩ := h
    rcases List.mem_cons.mp hm with rfl | hm
    · exact ⟨text, htext⟩
    · exact ih hothers hm

theorem get?_foldl {members : List (String × Json)} {entries : List (String × String)}
    (h : members.mapM (fun m => (text? m.2).map (m.1, ·)) = some entries) (start : Dict String)
    (key : String) :
    (entries.foldl (fun d e => d.insert e.1 e.2) start).get? key =
      ((member? key members).bind text?).or (start.get? key) := by
  induction members generalizing entries start with
  | nil =>
    cases h
    simp
  | cons head rest ih =>
    obtain ⟨name, value⟩ := head
    simp only [List.mapM_cons, Option.bind_eq_bind, Option.bind_eq_some_iff,
      Option.map_eq_some_iff] at h
    obtain ⟨_, ⟨text, htext, rfl⟩, others, hothers, hentries⟩ := h
    cases hentries
    rw [List.foldl_cons, ih hothers, member?_cons, Dict.get?_insert]
    cases hm : member? key rest with
    | none =>
      split
      next => simp [htext]
      next => simp
    | some found =>
      obtain ⟨other, hother⟩ := text?_of_mapM hothers (mem_of_member? hm)
      have hfound : text? found = some other := hother
      simp [hfound]

theorem get?_of_dict? {members : List (String × Json)} {d : Dict String}
    (h : dict? text? (.object members) = some d) (key : String) :
    d.get? key = (member? key members).bind text? := by
  obtain ⟨entries, hread, rfl⟩ := Option.map_eq_some_iff.mp h
  have hfold := get?_foldl hread {} key
  rw [Dict.ofList, hfold]
  exact Option.or_none

variable {α : Type} {write : α → Json} {read : Json → Option α} {x y : Option α} {slot : Slot}

/-- A text that a patch gives replaces a member; one that it leaves out does not. -/
theorem member?_mergeMembers_memberIf (hw : ∀ v, ∃ text, write v = .string text) (x : Option α)
    (name n : String) (t : List (String × Json)) :
    member? n (mergeMembers t (memberIf name write x)) =
      if n = name then (x.map write).or (member? n t) else member? n t := by
  cases x with
  | none => simp [memberIf]
  | some v =>
    obtain ⟨text, htext⟩ := hw v
    rw [memberIf, mergeMembers_cons, mergeMembers_nil, Option.map_some, htext]
    by_cases hn : n = name
    · subst hn
      rw [member?_mergeMember_self (by simp), if_pos rfl, mergePatch]
      · rfl
      · simp
    · rw [member?_mergeMember_of_ne hn, if_neg hn]

theorem cases_of_optional (h : Json.optional read slot = some x) :
    (x = none ∧ (slot = none ∨ slot = some .null)) ∨
      ∃ v y, slot = some v ∧ v ≠ .null ∧ read v = some y ∧ x = some y := by
  unfold Json.optional at h
  split at h
  next =>
    cases h
    exact .inl ⟨rfl, .inl rfl⟩
  next =>
    cases h
    exact .inl ⟨rfl, .inr rfl⟩
  next v hnull =>
    obtain ⟨y, hy, rfl⟩ := Option.map_eq_some_iff.mp h
    exact .inr ⟨v, y, rfl, hnull, hy, rfl⟩

theorem forall_of_mapM {Good : α → Prop} (hread : ∀ {j a}, read j = some a → Good a)
    {items : List Json} {as : List α} (h : items.mapM read = some as) : ∀ a ∈ as, Good a := by
  induction items generalizing as with
  | nil =>
    cases h
    exact List.forall_mem_nil Good
  | cons item items ih =>
    simp only [List.mapM_cons, Option.bind_eq_bind, Option.bind_eq_some_iff] at h
    obtain ⟨a, ha, rest, hrest, hall⟩ := h
    cases hall
    exact List.forall_mem_cons.mpr ⟨hread ha, ih hrest⟩

theorem forall_of_defaulted {Good : α → Prop} (hread : ∀ {j a}, read j = some a → Good a)
    {as : List α} (h : defaulted [] (items? read) slot = some as) : ∀ a ∈ as, Good a := by
  cases slot with
  | none =>
    cases h
    exact List.forall_mem_nil Good
  | some value =>
    cases value with
    | array items => exact forall_of_mapM hread h
    | _ => exact absurd h (by simp [defaulted, items?])

theorem optional_or (hw : ∀ v, ∃ text, write v = .string text)
    (hread : ∀ v ∈ x, read (write v) = some v) (hold : Json.optional read slot = some y) :
    Json.optional read ((x.map write).or slot) = some (x.or y) := by
  cases x with
  | none => exact hold
  | some v =>
    obtain ⟨text, htext⟩ := hw v
    have hv := hread v rfl
    rw [htext] at hv
    rw [Option.map_some, Option.some_or, Option.some_or, htext, Json.optional, hv]
    · rfl
    · simp

end CertBroker.Json
