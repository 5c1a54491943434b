import CertBroker.Program

namespace CertBroker.Program

variable {Question : Type} {Reply : Question → Type} {α β σ : Type}

/-- A program can be asked and answered like this, and then ends with the value. -/
inductive Trace : Program Question Reply α → List (Event Question Reply) → α → Prop
  | done (a : α) : Trace (.done a) [] a
  | ask {q : Question} {next : Reply q → Program Question Reply α} {answer : Reply q}
      {events : List (Event Question Reply)} {a : α} :
      Trace (next answer) events a → Trace (.ask q next) (⟨q, answer⟩ :: events) a

@[simp] theorem trace_done_iff {events : List (Event Question Reply)} {a b : α} :
    Trace (.done a) events b ↔ events = [] ∧ b = a := by
  constructor
  · intro h
    cases h
    exact ⟨rfl, rfl⟩
  · rintro ⟨rfl, rfl⟩
    exact .done b

@[simp] theorem trace_ask_iff {q : Question} {next : Reply q → Program Question Reply α}
    {events : List (Event Question Reply)} {a : α} :
    Trace (.ask q next) events a ↔
      ∃ answer rest, events = ⟨q, answer⟩ :: rest ∧ Trace (next answer) rest a := by
  constructor
  · intro h
    cases h with
    | ask h => exact ⟨_, _, rfl, h⟩
  · rintro ⟨answer, rest, rfl, h⟩
    exact .ask h

@[simp] theorem trace_put_iff {q : Question} {events : List (Event Question Reply)}
    {a : Reply q} : Trace (put q) events a ↔ events = [⟨q, a⟩] := by
  simp only [put, trace_ask_iff, trace_done_iff]
  constructor
  · rintro ⟨answer, rest, rfl, rfl, rfl⟩
    rfl
  · rintro rfl
    exact ⟨a, [], rfl, rfl, rfl⟩

@[simp] theorem trace_bind_iff {p : Program Question Reply α} {f : α → Program Question Reply β}
    {events : List (Event Question Reply)} {b : β} :
    Trace (p >>= f) events b ↔
      ∃ a first second, events = first ++ second ∧ Trace p first a ∧ Trace (f a) second b := by
  induction p generalizing events with
  | done a =>
    simp only [done_bind, trace_done_iff]
    constructor
    · intro h
      exact ⟨a, [], events, rfl, ⟨rfl, rfl⟩, h⟩
    · rintro ⟨_, _, second, rfl, ⟨rfl, rfl⟩, h⟩
      exact h
  | ask q next ih =>
    simp only [ask_bind, trace_ask_iff, ih]
    constructor
    · rintro ⟨answer, rest, rfl, a, first, second, rfl, h, h'⟩
      exact ⟨a, ⟨q, answer⟩ :: first, second, rfl, ⟨answer, first, rfl, h⟩, h'⟩
    · rintro ⟨a, _, second, rfl, ⟨answer, first, rfl, h⟩, h'⟩
      exact ⟨answer, first ++ second, rfl, a, first, second, rfl, h, h'⟩

/-- Of two traces that go on to the same events one is the other. -/
theorem Trace.unique {p : Program Question Reply α}
    {first second rest rest' : List (Event Question Reply)} {a b : α}
    (h : Trace p first a) (h' : Trace p second b)
    (heq : first ++ rest = second ++ rest') : first = second ∧ a = b ∧ rest = rest' := by
  induction h generalizing second with
  | done a =>
    cases h'
    exact ⟨rfl, rfl, heq⟩
  | ask _ ih =>
    cases h' with
    | ask h' =>
      obtain ⟨he, htail⟩ := List.cons.inj heq
      cases he
      obtain ⟨rfl, rfl, hrest⟩ := ih h' htail
      exact ⟨rfl, rfl, hrest⟩

/-- Whatever the surroundings are, a run is a trace. -/
theorem run_trace (answer : Surroundings Question Reply σ) (p : Program Question Reply α)
    (s : σ) : Trace p (p.run answer s).events (p.run answer s).value := by
  induction p generalizing s with
  | done a => exact .done a
  | ask q next ih => exact .ask (ih _ _)

/-- Two surroundings that are told apart by no question of a run give the same run. -/
theorem run_congr {τ : Type} {first : Surroundings Question Reply σ}
    {second : Surroundings Question Reply τ} {alike : σ → τ → Prop} {kind : Question → Prop}
    (hstep : ∀ s t q, alike s t → kind q →
      (first s q).1 = (second t q).1 ∧ alike (first s q).2 (second t q).2)
    (p : Program Question Reply α) {s : σ} {t : τ} (h : alike s t)
    (hkind : ∀ e ∈ (p.run first s).events, kind e.question) :
    (p.run first s).value = (p.run second t).value ∧
      (p.run first s).events = (p.run second t).events ∧
      alike (p.run first s).state (p.run second t).state := by
  induction p generalizing s t with
  | done a => exact ⟨rfl, rfl, h⟩
  | ask q next ih =>
    have hasked : kind q := hkind ⟨q, (first s q).1⟩ List.mem_cons_self
    obtain ⟨hanswer, halike⟩ := hstep s t q h hasked
    obtain ⟨hvalue, hevents, hstate⟩ :=
      ih (first s q).1 halike fun e he => hkind e (List.mem_cons_of_mem _ he)
    rw [hanswer] at hvalue hevents hstate
    simp only [run, hanswer]
    exact ⟨hvalue, congrArg _ hevents, hstate⟩

/-- The program that finds the answer to each question by another program. -/
def lower {Question' : Type} {Reply' : Question' → Type}
    (find : (q : Question) → Program Question' Reply' (Reply q)) :
    Program Question Reply α → Program Question' Reply' α
  | .done a => .done a
  | .ask q next => find q >>= fun answer => (next answer).lower find

theorem lower_bind {Question' : Type} {Reply' : Question' → Type}
    (find : (q : Question) → Program Question' Reply' (Reply q)) (p : Program Question Reply α)
    (f : α → Program Question Reply β) :
    (p >>= f).lower find = p.lower find >>= fun a => (f a).lower find := by
  induction p with
  | done a => rfl
  | ask q next ih => simp only [ask_bind, lower, ih, bind_assoc]

theorem lower_put {Question' : Type} {Reply' : Question' → Type}
    (find : (q : Question) → Program Question' Reply' (Reply q)) (q : Question) :
    (put q).lower find = find q := by
  have hbind : (put q).lower find = find q >>= Program.done := rfl
  rw [hbind, bind_done]

end CertBroker.Program
