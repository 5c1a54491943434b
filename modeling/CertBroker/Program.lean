
namespace CertBroker

/-- A program with a value in the end; `Reply` says what answers a question has. -/
inductive Program (Question : Type) (Reply : Question → Type) (α : Type) where
  | done (value : α)
  | ask (question : Question) (next : Reply question → Program Question Reply α)

namespace Program

variable {Question : Type} {Reply : Question → Type} {α β γ σ : Type}

/-- A question that was asked, with the answer it got. -/
structure Event (Question : Type) (Reply : Question → Type) where
  question : Question
  answer : Reply question

/-- How surroundings answer a question, and what they are afterwards. -/
abbrev Surroundings (Question : Type) (Reply : Question → Type) (σ : Type) : Type :=
  σ → (question : Question) → Reply question × σ

protected def bind :
    Program Question Reply α → (α → Program Question Reply β) → Program Question Reply β
  | .done a, f => f a
  | .ask q next, f => .ask q fun r => (next r).bind f

instance : Monad (Program Question Reply) where
  pure := .done
  bind := Program.bind

@[simp] theorem pure_eq (a : α) : (pure a : Program Question Reply α) = .done a := rfl

@[simp] theorem done_bind (a : α) (f : α → Program Question Reply β) :
    (Program.done a >>= f) = f a := rfl

@[simp] theorem ask_bind (q : Question) (next : Reply q → Program Question Reply α)
    (f : α → Program Question Reply β) :
    (Program.ask q next >>= f) = .ask q fun r => next r >>= f := rfl

theorem bind_done (p : Program Question Reply α) : p >>= Program.done = p := by
  induction p with
  | done a => rfl
  | ask q next ih => simp only [ask_bind, ih]

theorem bind_assoc (p : Program Question Reply α) (f : α → Program Question Reply β)
    (g : β → Program Question Reply γ) : (p >>= f) >>= g = p >>= fun a => f a >>= g := by
  induction p with
  | done a => rfl
  | ask q next ih => simp only [ask_bind, ih]

instance : LawfulMonad (Program Question Reply) :=
  LawfulMonad.mk' _ (fun p => bind_done p) (fun _ _ => rfl) bind_assoc

def put (q : Question) : Program Question Reply (Reply q) := .ask q .done

structure Run (Question : Type) (Reply : Question → Type) (α σ : Type) where
  value : α
  events : List (Event Question Reply)
  state : σ

/-- Runs a program in surroundings. -/
def run (answer : Surroundings Question Reply σ) :
    Program Question Reply α → σ → Run Question Reply α σ
  | .done a, s => ⟨a, [], s⟩
  | .ask q next, s =>
    let reply := answer s q
    let rest := run answer (next reply.1) reply.2
    ⟨rest.value, ⟨q, reply.1⟩ :: rest.events, rest.state⟩

theorem run_bind (answer : Surroundings Question Reply σ) (p : Program Question Reply α)
    (f : α → Program Question Reply β) (s : σ) :
    (p >>= f).run answer s =
      let first := p.run answer s
      let second := (f first.value).run answer first.state
      ⟨second.value, first.events ++ second.events, second.state⟩ := by
  induction p generalizing s with
  | done a => rfl
  | ask q next ih => simp only [ask_bind, run, ih, List.cons_append]

end Program

end CertBroker
