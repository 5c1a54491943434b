import CertBroker.Program
import Mathlib.Data.List.Forall2

namespace CertBroker.Program

variable {Question : Type} {Reply : Question → Type} {α β γ δ σ τ : Type}

/-- Programs whose questions belong together by `asks`, as long as `twins` relates the events so
far, and whose values belong together in the end. -/
inductive Lockstep (asks : Question → Question → Prop)
    (twins : Event Question Reply → Event Question Reply → Prop) (values : α → β → Prop) :
    Program Question Reply α → Program Question Reply β → Prop
  | done {a : α} {b : β} (h : values a b) : Lockstep asks twins values (.done a) (.done b)
  | ask {q q' : Question} {next : Reply q → Program Question Reply α}
      {next' : Reply q' → Program Question Reply β} (h : asks q q')
      (hnext : ∀ a a', twins ⟨q, a⟩ ⟨q', a'⟩ → Lockstep asks twins values (next a) (next' a')) :
      Lockstep asks twins values (.ask q next) (.ask q' next')

namespace Lockstep

variable {asks : Question → Question → Prop}
  {twins : Event Question Reply → Event Question Reply → Prop}

theorem bind {values : α → β → Prop} {values' : γ → δ → Prop} {p : Program Question Reply α}
    {p' : Program Question Reply β} {f : α → Program Question Reply γ}
    {f' : β → Program Question Reply δ} (h : Lockstep asks twins values p p')
    (hf : ∀ a b, values a b → Lockstep asks twins values' (f a) (f' b)) :
    Lockstep asks twins values' (p >>= f) (p' >>= f') := by
  induction h with
  | done h => exact hf _ _ h
  | ask h _ ih => exact .ask h fun a a' hanswer => ih a a' hanswer

/-- Surroundings that start alike, and give answers that belong together to questions that do,
stay alike through the two runs. -/
theorem run {values : α → β → Prop} {first : Surroundings Question Reply σ}
    {second : Surroundings Question Reply τ} (alike : σ → τ → Prop)
    (hstep : ∀ s t q q', alike s t → asks q q' →
      twins ⟨q, (first s q).1⟩ ⟨q', (second t q').1⟩ ∧ alike (first s q).2 (second t q').2)
    {p : Program Question Reply α} {p' : Program Question Reply β}
    (h : Lockstep asks twins values p p') {s : σ} {t : τ} (hst : alike s t) :
    values (p.run first s).value (p'.run second t).value ∧
      List.Forall₂ twins (p.run first s).events (p'.run second t).events ∧
      alike (p.run first s).state (p'.run second t).state := by
  induction h generalizing s t with
  | done h => exact ⟨h, .nil, hst⟩
  | @ask q q' _ _ h _ ih =>
    obtain ⟨htwin, halike⟩ := hstep s t q q' hst h
    obtain ⟨hvalue, hevents, hstate⟩ := ih _ _ htwin halike
    exact ⟨hvalue, .cons htwin hevents, hstate⟩

end Lockstep

end CertBroker.Program
