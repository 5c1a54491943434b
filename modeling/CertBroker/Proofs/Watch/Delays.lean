import CertBroker.Proofs.Watch.Backoff
import CertBroker.Watch.Retry
import Mathlib.Data.List.Basic

namespace CertBroker

/-- A pass that came to its end: the object it was over, and what came of it. -/
structure Ended where
  object : Watched
  outcome : Except Failure Action

namespace Ended

/-- Whether it was a pass over this object. -/
def isOver (id : Identity) (e : Ended) : Bool := e.object.identity = id

def failed (e : Ended) : Bool := e.outcome matches .error _

end Ended

/-- How many passes over an object failed at the end of a history, after the last one over it that
did not. -/
def streak (id : Identity) (history : List Ended) : Nat :=
  ((history.filter (·.isOver id)).reverse.takeWhile (·.failed)).length

/-- The delays after a history of passes. -/
def BackoffTable.afterAll (delays : BackoffTable) (history : List Ended) : BackoffTable :=
  history.foldl (fun delays e => (delays.afterPass e.object.identity e.outcome).2) delays

/-- A name as the API server allows it: it stands in a path and has no slash. -/
def Unslashed (name : String) : Prop := '/' ∉ name.toList

instance (name : String) : Decidable (Unslashed name) := inferInstanceAs (Decidable (_ ∉ _))

/-- An object with a name, whose name and namespace have no slash. -/
structure Watched.Named (o : Watched) : Prop where
  name : ∃ name, o.metadata.name = some name ∧ Unslashed name
  ns : ∀ ns, o.metadata.ns = some ns → Unslashed ns

/-- An identity without a slash in its name and namespace. -/
structure Identity.Plain (id : Identity) : Prop where
  name : Unslashed id.name
  ns : ∀ ns, id.ns = some ns → Unslashed ns

theorem Watched.Named.plain {o : Watched} (h : o.Named) : o.identity.Plain := by
  obtain ⟨name, hname, hplain⟩ := h.name
  refine ⟨?_, h.ns⟩
  simpa [Watched.identity, Metadata.anyName, hname] using hplain

theorem WatchedKind.unslashed_text (k : WatchedKind) : Unslashed k.text := by
  cases k with
  | request => decide
  | issuer scope => cases scope <;> decide

theorem WatchedKind.text_injective {k l : WatchedKind} (h : k.text = l.text) : k = l := by
  revert h
  cases k with
  | request => cases l with
    | request => exact fun _ => rfl
    | issuer scope => cases scope <;> decide
  | issuer scope => cases l with
    | request => cases scope <;> decide
    | issuer other => cases scope <;> cases other <;> decide

theorem Unslashed.takeWhile {a : String} (ha : Unslashed a) (rest : List Char) :
    (a.toList ++ '/' :: rest).takeWhile (· ≠ '/') = a.toList := by
  have hall : ∀ c ∈ a.toList, decide (c ≠ '/') = true :=
    fun c hc => decide_eq_true fun heq => ha (heq ▸ hc)
  rw [List.takeWhile_append_of_pos hall]
  simp

/-- Two texts in front of their first slashes are equal if all is, and so is what follows. -/
theorem Unslashed.append_inj {a b c d : String} (ha : Unslashed a) (hb : Unslashed b)
    (h : a ++ "/" ++ c = b ++ "/" ++ d) : a = b ∧ c = d := by
  have hlist : a.toList ++ '/' :: c.toList = b.toList ++ '/' :: d.toList := by
    simpa using congrArg String.toList h
  have hfirst : a.toList = b.toList := by
    rw [← ha.takeWhile c.toList, hlist, hb.takeWhile]
  rw [hfirst] at hlist
  have hrest := (List.cons.inj (List.append_cancel_left hlist)).2
  exact ⟨String.toList_inj.mp hfirst, String.toList_inj.mp hrest⟩

theorem Unslashed.ne_append {a c d : String} (ha : Unslashed a) : a ≠ c ++ "/" ++ d := by
  rintro rfl
  exact ha (by simp)

/-- What stands in a key behind the kind. -/
def Identity.tail (id : Identity) : String :=
  match id.ns with
  | some ns => ns ++ "/" ++ id.name
  | none => id.name

theorem Identity.key_eq (id : Identity) : id.key = id.kind.text ++ "/" ++ id.tail := by
  obtain ⟨kind, ns, name⟩ := id
  cases ns <;> simp [key, tail, String.append_assoc]

/-- The key tells the objects apart. -/
theorem Identity.Plain.key_injective {id other : Identity} (h : id.Plain) (ho : other.Plain)
    (hkey : id.key = other.key) : id = other := by
  rw [id.key_eq, other.key_eq] at hkey
  obtain ⟨hkind, htail⟩ :=
    Unslashed.append_inj id.kind.unslashed_text other.kind.unslashed_text hkey
  obtain ⟨kind, ns, name⟩ := id
  obtain ⟨kind', ns', name'⟩ := other
  cases WatchedKind.text_injective hkind
  cases ns with
  | none => cases ns' with
    | none => exact congrArg _ htail
    | some ns' => exact absurd htail h.name.ne_append
  | some ns => cases ns' with
    | none => exact absurd htail.symm ho.name.ne_append
    | some ns' =>
      obtain ⟨rfl, rfl⟩ := Unslashed.append_inj (h.ns ns rfl) (ho.ns ns' rfl) htail
      rfl

theorem streak_append_of_other {id : Identity} {history : List Ended} {e : Ended}
    (h : e.object.identity ≠ id) : streak id (history ++ [e]) = streak id history := by
  simp [streak, List.filter_append, Ended.isOver, h]

theorem streak_append_of_ok {history : List Ended} {o : Watched} {action : Action} :
    streak o.identity (history ++ [⟨o, .ok action⟩]) = 0 := by
  simp [streak, List.filter_append, Ended.isOver, Ended.failed]

theorem streak_append_of_error {history : List Ended} {o : Watched} {failure : Failure} :
    streak o.identity (history ++ [⟨o, .error failure⟩]) = streak o.identity history + 1 := by
  simp [streak, List.filter_append, Ended.isOver, Ended.failed]

namespace BackoffTable

/-- The state of an object's delays; one without an entry has the state at the start. -/
def stateOf (delays : BackoffTable) (id : Identity) : Backoff :=
  (delays.states.get? id.key).getD .standard

/-- A failed pass waits for the next delay of its object. -/
theorem fst_afterPass_error (delays : BackoffTable) (id : Identity) (failure : Failure) :
    (delays.afterPass id (.error failure)).1 = some (delays.stateOf id).next.1.toNat := rfl

theorem stateOf_afterPass_of_ne {delays : BackoffTable} {id other : Identity} (h : id.Plain)
    (ho : other.Plain) (hne : id ≠ other) (outcome : Except Failure Action) :
    (delays.afterPass id outcome).2.stateOf other = delays.stateOf other := by
  have hkey : id.key ≠ other.key := fun heq => hne (h.key_injective ho heq)
  simp [stateOf, get?_afterPass_of_ne delays id outcome hkey]

theorem stateOf_afterPass_ok (delays : BackoffTable) (id : Identity) (action : Action) :
    (delays.afterPass id (.ok action)).2.stateOf id = .standard := by
  cases action <;> simp [stateOf, afterPass, reset, Dict.get?_erase]

theorem stateOf_afterPass_error (delays : BackoffTable) (id : Identity) (failure : Failure) :
    (delays.afterPass id (.error failure)).2.stateOf id = (delays.stateOf id).next.2 := by
  simp [stateOf, afterPass, next]

/-- After any history the delays of an object stand where its own failures have brought them. -/
theorem given_afterAll {history : List Ended} (named : ∀ e ∈ history, e.object.Named)
    {id : Identity} (h : id.Plain) :
    Backoff.Given 5 300 (streak id history) ((afterAll {} history).stateOf id) := by
  -- From the end: the last pass is over another object, or it ends or lengthens the streak.
  induction history using List.reverseRecOn with
  | nil => exact Backoff.given_standard
  | append_singleton earlier last ih =>
    have hearlier := ih fun e he => named e (List.mem_append_left _ he)
    have hstate : afterAll {} (earlier ++ [last])
        = ((afterAll {} earlier).afterPass last.object.identity last.outcome).2 := by
      simp [afterAll]
    rw [hstate]
    obtain ⟨o, outcome⟩ := last
    by_cases hid : o.identity = id
    · subst hid
      cases outcome with
      | ok action =>
        rw [streak_append_of_ok, stateOf_afterPass_ok]
        exact Backoff.given_standard
      | error failure =>
        rw [streak_append_of_error, stateOf_afterPass_error]
        exact hearlier.next (by decide)
    · have ho : o.identity.Plain := (named ⟨o, outcome⟩ (by simp)).plain
      rw [streak_append_of_other hid, stateOf_afterPass_of_ne ho h hid]
      exact hearlier

/-- A failed pass over an object, the `n`-th since its last one that did not fail, waits for five
seconds times the `n`-th Fibonacci number and at most for five minutes, whatever became of other
objects meanwhile; and objects that differ in kind, namespace or name have keys that differ. -/
theorem delay_eq_fib {history : List Ended} (named : ∀ e ∈ history, e.object.Named)
    {o : Watched} (ho : o.Named) (failure : Failure) :
    ((afterAll {} history).afterPass o.identity (.error failure)).1
        = some (min (5 * Nat.fib (streak o.identity history + 1)) 300)
      ∧ ∀ other : Watched, other.Named → other.identity ≠ o.identity →
          other.identity.key ≠ o.identity.key := by
  have hgiven := given_afterAll named ho.plain
  refine ⟨?_, fun other hother hne hkey => hne (hother.plain.key_injective ho.plain hkey)⟩
  rw [fst_afterPass_error, hgiven.delay]
  rfl

end BackoffTable

/-- A request, an issuer of its namespace and an issuer of the cluster, all with one name. -/
def sampleWatched : WatchedKind → Watched
  | .request => .request
    { metadata := { name := "web", ns := "shop" }
      spec := { request := "", issuerRef := { name := "a" } } }
  | .issuer scope => .issuer
    { scope, metadata := { name := "web", ns := if scope = .cluster then none else "shop" }
      spec := { url := "https://pki", profile := "tls", authSecretName := "pki" } }

def sampleFailure : Except Failure Action := .error (.watch "closed")

/-- The request fails twice, is passed over well, and fails three times among passes over the
issuers. -/
def sampleHistory : List Ended :=
  [(.request, sampleFailure), (.request, sampleFailure), (.request, .ok .awaitChange),
    (.issuer .namespaced, sampleFailure), (.request, sampleFailure),
    (.issuer .cluster, sampleFailure), (.request, sampleFailure),
    (.issuer .namespaced, .ok .awaitChange), (.request, sampleFailure),
    (.issuer .cluster, .ok .awaitChange)].map fun (kind, outcome) => ⟨sampleWatched kind, outcome⟩

theorem named_sampleWatched (k : WatchedKind) : (sampleWatched k).Named := by
  cases k with
  | request => exact ⟨⟨"web", rfl, by decide⟩, fun ns h => by cases h; decide⟩
  | issuer scope =>
    cases scope with
    | namespaced => exact ⟨⟨"web", rfl, by decide⟩, fun ns h => by cases h; decide⟩
    | cluster => exact ⟨⟨"web", rfl, by decide⟩, fun ns h => by cases h⟩

/-- The fourth failure of the request since its good pass has it wait fifteen seconds. -/
theorem delay_of_sampleHistory :
    ((BackoffTable.afterAll {} sampleHistory).afterPass (sampleWatched .request).identity
        sampleFailure).1 = some 15
      ∧ (sampleWatched .request).identity.key ≠ (sampleWatched (.issuer .namespaced)).identity.key
      := by
  have hnamed : ∀ e ∈ sampleHistory, e.object.Named := by
    intro e he
    obtain ⟨⟨kind, outcome⟩, -, rfl⟩ := List.mem_map.mp he
    exact named_sampleWatched kind
  have h := BackoffTable.delay_eq_fib hnamed (named_sampleWatched .request) (.watch "closed")
  have hstreak : streak (sampleWatched .request).identity sampleHistory = 3 := by decide
  refine ⟨?_, (h.2 _ (named_sampleWatched (.issuer .namespaced)) (by decide)).symm⟩
  rw [sampleFailure, h.1, hstreak]
  rfl

end CertBroker
