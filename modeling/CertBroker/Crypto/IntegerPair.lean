import CertBroker.Der.Strict

namespace CertBroker.Crypto

open Der

def integerPair : Reader (Nat × Nat) := Strict.within 0x30 do
  let a ← Strict.positive
  return (a, ← Strict.positive)

def integerPair? (bs : Bytes) : Option (Nat × Nat) := Strict.readAll? integerPair bs

/-- Writes two positive numbers. -/
def integerPairBytes (a b : Nat) : Bytes :=
  Strict.tagged 0x30
    (Strict.tagged 0x02 (Strict.positiveBytes a) ++ Strict.tagged 0x02 (Strict.positiveBytes b))

end CertBroker.Crypto
