import CertBroker.Backoff
import Mathlib.Data.Nat.Fib.Basic

namespace CertBroker

namespace Backoff

variable {least cap : UInt64} {n : Nat} {b : Backoff}

/-- The state of a sequence of delays of which `n` have been given. -/
structure Given (least cap : UInt64) (n : Nat) (b : Backoff) : Prop where
  least_eq : b.least = least
  cap_eq : b.cap = cap
  previous_eq : b.previous.toNat = min (least.toNat * Nat.fib n) cap.toNat
  current_eq : b.current.toNat = min (least.toNat * Nat.fib (n + 1)) cap.toNat

theorem given_start (hle : least ≤ cap) : Given least cap 0 (start least cap) := by
  have hmin : min least.toNat cap.toNat = least.toNat := min_eq_left (UInt64.le_iff_toNat_le.mp hle)
  exact ⟨rfl, rfl, by simp [start], by simp [start, hmin]⟩

theorem Given.reset (h : Given least cap n b) (hle : least ≤ cap) :
    Given least cap 0 b.reset := by
  have hmin : min least.toNat cap.toNat = least.toNat := min_eq_left (UInt64.le_iff_toNat_le.mp hle)
  exact ⟨h.least_eq, h.cap_eq, by simp [Backoff.reset], by simp [Backoff.reset, h.least_eq, hmin]⟩

/-- Both words are at most the cap, so their sum does not wrap around. -/
theorem Given.sum_eq (h : Given least cap n b) (hcap : cap.toNat < 2 ^ 63) :
    (b.previous + b.current).toNat = b.previous.toNat + b.current.toNat := by
  have hp := h.previous_eq
  have hc := h.current_eq
  rw [UInt64.toNat_add, Nat.mod_eq_of_lt (by omega)]

/-- Capping the terms and then the sum is capping the sum: only one of the two words needs the
cap. -/
theorem min_add_min (x y c : Nat) : min (min x c + min y c) c = min (x + y) c := by
  omega

theorem Given.next (h : Given least cap n b) (hcap : cap.toNat < 2 ^ 63) :
    Given least cap (n + 1) b.next.2 := by
  refine ⟨h.least_eq, h.cap_eq, h.current_eq, ?_⟩
  have hsum : (b.next.2).current.toNat = min (b.previous + b.current).toNat b.cap.toNat := by
    simp only [Backoff.next, UInt64.le_iff_toNat_le]
    split <;> omega
  rw [hsum, h.sum_eq hcap, h.previous_eq, h.current_eq, h.cap_eq, min_add_min, ← Nat.mul_add,
    ← Nat.fib_add_two]

theorem Given.delay (h : Given least cap n b) :
    b.next.1.toNat = min (least.toNat * Nat.fib (n + 1)) cap.toNat :=
  h.current_eq

theorem given_standard : Given 5 300 0 standard := given_start (by decide)

/-- What can be asked of a sequence of delays. -/
inductive Step where
  | next
  | reset
deriving DecidableEq

def step (b : Backoff) : Step → Backoff
  | .next => b.next.2
  | .reset => b.reset

def after (b : Backoff) (steps : List Step) : Backoff := steps.foldl step b

/-- How many delays have been given since the last reset, if there were `n` before these steps. -/
def sinceReset (n : Nat) (steps : List Step) : Nat :=
  steps.foldl (fun n s => match s with | .next => n + 1 | .reset => 0) n

theorem Given.after (h : Given least cap n b) (hle : least ≤ cap) (hcap : cap.toNat < 2 ^ 63)
    (steps : List Step) : Given least cap (sinceReset n steps) (b.after steps) := by
  induction steps generalizing n b with
  | nil => exact h
  | cons s steps ih =>
    cases s with
    | next => exact ih (h.next hcap)
    | reset => exact ih (h.reset hle)

theorem sinceReset_replicate (n k : Nat) : sinceReset n (List.replicate k .next) = n + k := by
  induction k generalizing n with
  | zero => rfl
  | succ k ih =>
    rw [List.replicate_succ]
    exact (ih (n + 1)).trans (by omega)

theorem Given.least_le_delay (h : Given least cap n b) (hle : least ≤ cap) : least ≤ b.next.1 := by
  have hfib : least.toNat ≤ least.toNat * Nat.fib (n + 1) :=
    Nat.le_mul_of_pos_right _ (Nat.fib_pos.mpr n.succ_pos)
  rw [UInt64.le_iff_toNat_le] at hle ⊢
  rw [h.delay]
  exact le_min hfib hle

theorem Given.delay_le_cap (h : Given least cap n b) : b.next.1 ≤ cap := by
  rw [UInt64.le_iff_toNat_le, h.delay]
  exact min_le_right _ _

theorem Given.delay_mono {m : Nat} {c : Backoff} (h : Given least cap n b)
    (hc : Given least cap m c) (hnm : n ≤ m) : b.next.1 ≤ c.next.1 := by
  have hfib : Nat.fib (n + 1) ≤ Nat.fib (m + 1) := Nat.fib_mono (by omega)
  rw [UInt64.le_iff_toNat_le, h.delay, hc.delay]
  exact min_le_min_right _ (Nat.mul_le_mul_left _ hfib)

/-- After any delays and resets the next delay is the least one times the Fibonacci number of its
place since the last reset, or the cap if that is less, and the sum for the one after it does not
wrap around. It lies between the least delay and the cap. The delays that follow it without a reset
are no shorter, and all of them are the cap if it is. -/
theorem delay_of_steps (hle : least ≤ cap) (hcap : cap.toNat < 2 ^ 63) (steps : List Step) :
    let b := (start least cap).after steps
    b.next.1.toNat = min (least.toNat * Nat.fib (sinceReset 0 steps + 1)) cap.toNat
      ∧ b.previous.toNat + b.current.toNat < 2 ^ 64
      ∧ least ≤ b.next.1 ∧ b.next.1 ≤ cap
      ∧ ∀ k, b.next.1 ≤ (b.after (List.replicate k .next)).next.1
        ∧ (b.next.1 = cap → (b.after (List.replicate k .next)).next.1 = cap) := by
  intro b
  have hgiven : Given least cap (sinceReset 0 steps) b := (given_start hle).after hle hcap steps
  have hp := hgiven.previous_eq
  have hc := hgiven.current_eq
  refine ⟨hgiven.delay, by omega, hgiven.least_le_delay hle, hgiven.delay_le_cap, fun k => ?_⟩
  have hlater := hgiven.after hle hcap (List.replicate k .next)
  rw [sinceReset_replicate] at hlater
  have hmono := hgiven.delay_mono hlater (Nat.le_add_right _ k)
  exact ⟨hmono, fun h => UInt64.le_antisymm hlater.delay_le_cap (h ▸ hmono)⟩

/-- The eleventh delay after a reset would be 445 seconds: it is the cap, and so are all later
ones. -/
theorem delay_of_reset :
    let b := (start 5 300).after (.next :: .next :: .reset :: List.replicate 10 .next)
    b.next.1 = 300 ∧ ∀ k, (b.after (List.replicate k .next)).next.1 = 300 := by
  intro b
  have hle : (5 : UInt64) ≤ 300 := by decide
  have hbound : (300 : UInt64).toNat < 2 ^ 63 := by decide
  obtain ⟨hdelay, -, -, -, hlater⟩ :=
    delay_of_steps hle hbound (.next :: .next :: .reset :: List.replicate 10 .next)
  have hcap : b.next.1 = 300 := UInt64.toNat_inj.mp (hdelay.trans (by decide))
  exact ⟨hcap, fun k => (hlater k).2 hcap⟩

end Backoff

end CertBroker
