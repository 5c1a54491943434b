import CertBroker.Text.Order

namespace CertBroker

open Text (before)

/-- A finite map with text keys; the listing is ascending, so each key stands once. -/
structure Dict (α : Type) where
  entries : List (String × α) := []
  ascending : entries.Pairwise (fun a b => before a.1 b.1) := by exact List.Pairwise.nil

namespace Dict

variable {α β : Type}

instance [DecidableEq α] : DecidableEq (Dict α) := fun a b =>
  if h : a.entries = b.entries then isTrue (by cases a; cases b; simp_all)
  else isFalse (fun hab => h (by rw [hab]))

instance : Inhabited (Dict α) := ⟨{}⟩

def empty : Dict α := {}

def isEmpty (d : Dict α) : Bool := d.entries.isEmpty

def find (key : String) : List (String × α) → Option α
  | [] => none
  | (k, v) :: rest => if k = key then some v else find key rest

def get? (d : Dict α) (key : String) : Option α := find key d.entries

/-- Put an entry in its place, replacing one with the same key. -/
def place (key : String) (value : α) : List (String × α) → List (String × α)
  | [] => [(key, value)]
  | (k, v) :: rest =>
    if before key k then (key, value) :: (k, v) :: rest
    else if key = k then (key, value) :: rest
    else (k, v) :: place key value rest

theorem place_keys {key : String} {value : α} {l : List (String × α)} {e : String × α}
    (h : e ∈ place key value l) : e.1 = key ∨ e ∈ l := by
  induction l with
  | nil => simp_all [place]
  | cons head rest ih =>
    unfold place at h
    split at h
    · rcases List.mem_cons.mp h with rfl | h <;> simp_all
    · split at h
      · rcases List.mem_cons.mp h with rfl | h <;> simp_all
      · rcases List.mem_cons.mp h with rfl | h
        · simp
        · rcases ih h with h | h <;> simp [h]

theorem place_ascending (key : String) (value : α) {l : List (String × α)}
    (h : l.Pairwise (fun a b => before a.1 b.1)) :
    (place key value l).Pairwise (fun a b => before a.1 b.1) := by
  induction l with
  | nil => simp [place]
  | cons head rest ih =>
    obtain ⟨hhead, hrest⟩ := List.pairwise_cons.mp h
    unfold place
    split
    next hlt =>
      refine List.pairwise_cons.mpr ⟨fun e he => ?_, h⟩
      rcases List.mem_cons.mp he with rfl | he
      · exact hlt
      · exact Text.before_trans hlt (hhead e he)
    next hge =>
      split
      next heq =>
        subst heq
        exact List.pairwise_cons.mpr ⟨hhead, hrest⟩
      next hne =>
        refine List.pairwise_cons.mpr ⟨fun e he => ?_, ih hrest⟩
        rcases place_keys he with hk | he
        · rw [hk]
          by_cases hb : before head.1 key = true
          · exact hb
          · exact absurd (Text.before_total (by simpa using hge) (by simpa using hb)) hne
        · exact hhead e he

def insert (d : Dict α) (key : String) (value : α) : Dict α :=
  ⟨place key value d.entries, place_ascending key value d.ascending⟩

def erase (d : Dict α) (key : String) : Dict α :=
  ⟨d.entries.filter (fun e => e.1 ≠ key), d.ascending.filter _⟩

def contains (d : Dict α) (key : String) : Bool := (d.get? key).isSome

def keys (d : Dict α) : List String := d.entries.map (·.1)

/-- Of several entries with one key the last wins. -/
def ofList (l : List (String × α)) : Dict α := l.foldl (fun d e => d.insert e.1 e.2) {}

def map (f : α → β) (d : Dict α) : Dict β :=
  ⟨d.entries.map (fun e => (e.1, f e.2)), by
    simpa [List.pairwise_map] using d.ascending⟩

@[simp] theorem get?_empty (key : String) : (empty : Dict α).get? key = none := rfl

theorem find_place (key other : String) (value : α) (l : List (String × α)) :
    find other (place key value l) = if key = other then some value else find other l := by
  induction l with
  | nil => simp [place, find]
  | cons head rest ih =>
    unfold place
    split
    next => simp [find]
    next =>
      split
      next heq => subst heq; simp only [find]; split <;> rfl
      next hne =>
        simp only [find, ih]
        split
        next hk => subst hk; rw [if_neg hne]
        next => rfl

@[simp] theorem get?_insert (d : Dict α) (key other : String) (value : α) :
    (d.insert key value).get? other = if key = other then some value else d.get? other :=
  find_place key other value d.entries

theorem get?_erase (d : Dict α) (key other : String) :
    (d.erase key).get? other = if key = other then none else d.get? other := by
  obtain ⟨entries, ascending⟩ := d
  simp only [erase, get?]
  clear ascending
  induction entries with
  | nil => simp [find]
  | cons head rest ih =>
    by_cases hk : head.1 = key
    · subst hk
      by_cases ho : head.1 = other <;> simp_all [find]
    · by_cases ho : key = other
      · subst ho
        simp_all [find]
      · simp_all [find]

theorem mem_of_find_eq_some {key : String} {value : α} {l : List (String × α)}
    (h : find key l = some value) : (key, value) ∈ l := by
  induction l with
  | nil => cases h
  | cons head rest ih =>
    unfold find at h
    split at h
    next hkey =>
      cases Option.some.inj h
      rw [← hkey]
      exact List.mem_cons_self
    next => exact List.mem_cons_of_mem _ (ih h)

theorem find_eq_none {key : String} {l : List (String × α)} (h : ∀ e ∈ l, before key e.1) :
    find key l = none := by
  induction l with
  | nil => rfl
  | cons head rest ih =>
    have hne : head.1 ≠ key := by
      intro heq
      have hbefore := h head List.mem_cons_self
      rw [heq, Text.before_irrefl] at hbefore
      exact Bool.noConfusion hbefore
    simp only [find, if_neg hne]
    exact ih fun e he => h e (List.mem_cons_of_mem _ he)

/-- The first key of a list is the first key of every ascending list with the same readings. -/
theorem before_of_find_eq {a b : String × α} {l m : List (String × α)}
    (hl : (a :: l).Pairwise (fun a b => before a.1 b.1))
    (h : ∀ key, find key (a :: l) = find key (b :: m)) : before b.1 a.1 = false := by
  cases hba : before b.1 a.1 with
  | false => rfl
  | true =>
    have hnone : find b.1 (a :: l) = none := by
      refine find_eq_none fun e he => ?_
      rcases List.mem_cons.mp he with rfl | he
      · exact hba
      · exact Text.before_trans hba ((List.pairwise_cons.mp hl).1 e he)
    have hsome := h b.1
    rw [hnone] at hsome
    simp [find] at hsome

theorem eq_of_find_eq {l m : List (String × α)}
    (hl : l.Pairwise (fun a b => before a.1 b.1)) (hm : m.Pairwise (fun a b => before a.1 b.1))
    (h : ∀ key, find key l = find key m) : l = m := by
  induction l generalizing m with
  | nil =>
    cases m with
    | nil => rfl
    | cons b m => simpa [find] using h b.1
  | cons a l ih =>
    cases m with
    | nil => simpa [find] using h a.1
    | cons b m =>
      have hkey : a.1 = b.1 :=
        Text.before_total (before_of_find_eq hm fun key => (h key).symm) (before_of_find_eq hl h)
      obtain ⟨hfirst, hl⟩ := List.pairwise_cons.mp hl
      obtain ⟨hfirst', hm⟩ := List.pairwise_cons.mp hm
      have hvalue : a.2 = b.2 := by
        have hread := h a.1
        simpa [find, hkey] using hread
      have hrest : ∀ key, find key l = find key m := by
        intro key
        by_cases hk : a.1 = key
        · subst hk
          rw [find_eq_none hfirst, hkey, find_eq_none hfirst']
        · have hread := h key
          simpa only [find, if_neg hk, if_neg (hkey ▸ hk)] using hread
      rw [ih hl hm hrest, Prod.ext hkey hvalue]

theorem eq_of_get?_eq {d e : Dict α} (h : ∀ key, d.get? key = e.get? key) : d = e := by
  obtain ⟨entries, ascending⟩ := d
  obtain ⟨entries', ascending'⟩ := e
  simp only [mk.injEq]
  exact eq_of_find_eq ascending ascending' h

theorem get?_foldl_insert {l : List (String × α)} (h : l.Pairwise fun a b => before a.1 b.1)
    (d : Dict α) (key : String) :
    (l.foldl (fun d e => d.insert e.1 e.2) d).get? key = (find key l).or (d.get? key) := by
  induction l generalizing d with
  | nil => simp [find]
  | cons e l ih =>
    obtain ⟨hfirst, hl⟩ := List.pairwise_cons.mp h
    rw [List.foldl_cons, ih hl, get?_insert, find]
    split
    next hkey => rw [← hkey, find_eq_none hfirst, Option.none_or, Option.some_or]
    next => rfl

theorem isSome_find {key : String} {l : List (String × α)} :
    (find key l).isSome = true ↔ key ∈ l.map (·.1) := by
  induction l with
  | nil => simp [find]
  | cons e l ih =>
    unfold find
    split
    next hkey => simp [hkey]
    next hkey => simp [ih, Ne.symm hkey]

theorem contains_iff {d : Dict α} {key : String} : d.contains key = true ↔ key ∈ d.keys :=
  isSome_find

theorem nodup_keys (d : Dict α) : d.keys.Nodup := by
  refine List.pairwise_map.mpr (d.ascending.imp fun hbefore heq => ?_)
  rw [heq, Text.before_irrefl] at hbefore
  exact Bool.noConfusion hbefore

theorem eq_empty_of_isEmpty {d : Dict α} (h : d.isEmpty = true) : d = empty := by
  obtain ⟨entries, ascending⟩ := d
  cases List.isEmpty_iff.mp h
  rfl

theorem ofList_entries (d : Dict α) : ofList d.entries = d := by
  refine eq_of_get?_eq fun key => ?_
  rw [ofList, get?_foldl_insert d.ascending]
  exact Option.or_none

end Dict

end CertBroker
