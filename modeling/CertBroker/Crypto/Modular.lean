
namespace CertBroker.Crypto

/-- The power modulo `m`, by squaring. -/
def powMod (m b e : Nat) : Nat :=
  if e = 0 then 1 % m
  else
    let half := powMod m (b * b % m) (e / 2)
    if e % 2 = 1 then half * b % m else half
termination_by e

theorem powMod_eq (m b e : Nat) : powMod m b e = Nat.pow b e % m := by
  change powMod m b e = b ^ e % m
  induction e using Nat.strongRecOn generalizing b with
  | _ e ih =>
    unfold powMod
    split
    next h => simp [h]
    next h =>
      have hsquare : (b * b % m) ^ (e / 2) % m = b ^ (2 * (e / 2)) % m := by
        rw [← Nat.pow_mod, ← Nat.pow_two, Nat.pow_mul]
      have half := ih (e / 2) (by omega) (b * b % m)
      change _ = (b * b % m) ^ (e / 2) % m at half
      rw [half, hsquare]
      split
      next hodd =>
        have he : e = 2 * (e / 2) + 1 := by omega
        conv => rhs; rw [he, Nat.pow_succ]
        simp [Nat.mul_mod]
      next heven =>
        have he : e = 2 * (e / 2) := by omega
        conv => rhs; rw [he]

def inverseMod (p a : Nat) : Nat := powMod p a (p - 2)

def subMod (m a b : Nat) : Nat := (a + m - b) % m

end CertBroker.Crypto
